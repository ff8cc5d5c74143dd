/-
The three layouts of a tag file.

A mapping of tags is read pair by pair, and a list of records record by record. Apart from its key,
a pair is read as its record is (`taggedRecord_eq_ok_iff`), and in both layouts the first fault ends
the reading, so a mapping reads like the list of its records (`ReadAsTags`, `readAsTags_recordsOf`).
In the third layout either of them stands under `content`. Of such a document nothing but that value
is looked at, and the value is not looked into once more (`contentOf_wrapped`).
-/
import PromptTags.Catalog.TagFile
import PromptTags.Proofs.Results

set_option autoImplicit false

namespace PromptTags

open Yaml (Value)

/-! ## 1. Keys -/

namespace Yaml.Value

/-- The values that can be keys of tags: texts, numbers and truth values. -/
inductive IsScalar : Value → Prop where
  | text (s : String) : IsScalar (.text s)
  | number (n : Number) : IsScalar (.number n)
  | bool (b : Bool) : IsScalar (.bool b)

theorem isScalar_iff {v : Value} : v.IsScalar ↔ ∃ key, v.scalarText? = some key := by
  constructor
  · rintro (s | n | b)
    · exact ⟨s, rfl⟩
    · exact ⟨n.text, rfl⟩
    · exact ⟨toString b, rfl⟩
  · rintro ⟨key, hkey⟩
    cases v with
    | text s => exact .text s
    | number n => exact .number n
    | bool b => exact .bool b
    | null => cases hkey
    | list items => cases hkey
    | map pairs => cases hkey
    | tagged tag v => cases hkey

end Yaml.Value

namespace TagFile

/-! ## 2. Single records -/

variable {p : Value × Value} {v : Value}

/-- A record with one more alias in front. -/
def withKey (key : String) (r : Record) : Record := { r with aliases := key :: r.aliases }

/-- A pair is read as its record is, and the text of its key comes in front of the aliases. -/
theorem taggedRecord_eq_ok_iff {tag : Record} :
    taggedRecord p = .ok tag ↔
      ∃ key r, p.1.scalarText? = some key ∧ Record.ofValue p.2 = .ok r ∧ tag = withKey key r := by
  rw [taggedRecord]
  cases p.1.scalarText? with
  | none => simp
  | some key =>
    cases Record.ofValue p.2 with
    | error f => simp
    | ok r => simp [withKey, eq_comm]

/-- The key is looked at before the record. -/
theorem taggedRecord_eq_error_iff {fault : TagFileFault} :
    taggedRecord p = .error fault ↔ (¬p.1.IsScalar ∧ fault = .keyNotScalar p.1) ∨
      ∃ key f, p.1.scalarText? = some key ∧ Record.ofValue p.2 = .error f ∧
        fault = .badRecord (some key) f := by
  rw [taggedRecord, Yaml.Value.isScalar_iff]
  cases p.1.scalarText? with
  | none => simp [eq_comm]
  | some key =>
    cases Record.ofValue p.2 with
    | error f => simp [eq_comm]
    | ok r => simp

theorem listedRecord_eq_ok_iff {r : Record} :
    listedRecord v = .ok r ↔ Record.ofValue v = .ok r := by
  rw [listedRecord]
  cases Record.ofValue v <;> simp

/-! ## 3. Mappings and lists -/

/-- How a mapping of tags is read, next to the list of its values. -/
structure ReadAsTags (pairs : List (Value × Value)) (outcome : Except TagFileFault Catalog) :
    Prop where
  /-- It can be read where all keys are scalars and the list can be read. -/
  ok_iff : (∃ tags, outcome = .ok tags) ↔
    (∀ p ∈ pairs, p.1.IsScalar) ∧ ∃ records, ofDocument (.list (pairs.map Prod.snd)) = .ok records
  /-- Then its tags are the records of the list, each with the text of its key as first alias. -/
  ok_eq : ∀ tags records, outcome = .ok tags →
    ofDocument (.list (pairs.map Prod.snd)) = .ok records →
    tags.length = pairs.length ∧ records.length = pairs.length ∧
      ∃ keys : List String, pairs.map (fun p => p.1.scalarText?) = keys.map some ∧
        tags = List.zipWith withKey keys records
  /-- Else the fault is that of the first pair with a key that is no scalar or a value that is no
  record, and the key counts first. -/
  error_iff : ∀ fault, outcome = .error fault ↔ ∃ before p after, pairs = before ++ p :: after ∧
    (∀ q ∈ before, q.1.IsScalar ∧ ∃ r, Record.ofValue q.2 = .ok r) ∧
    ((¬p.1.IsScalar ∧ fault = .keyNotScalar p.1) ∨
      ∃ key f, p.1.scalarText? = some key ∧ Record.ofValue p.2 = .error f ∧
        fault = .badRecord (some key) f)

variable {pairs : List (Value × Value)}

theorem exists_taggedRecord_iff :
    (∃ tag, taggedRecord p = .ok tag) ↔ p.1.IsScalar ∧ ∃ r, Record.ofValue p.2 = .ok r := by
  simp only [taggedRecord_eq_ok_iff, Yaml.Value.isScalar_iff]
  constructor
  · rintro ⟨_, key, r, hkey, hr, -⟩
    exact ⟨⟨key, hkey⟩, r, hr⟩
  · rintro ⟨⟨key, hkey⟩, r, hr⟩
    exact ⟨_, key, r, hkey, hr, rfl⟩

theorem ofDocument_list_eq_ok_iff {records : Catalog} :
    ofDocument (.list (pairs.map Prod.snd)) = .ok records ↔
      List.Forall₂ (fun p r => Record.ofValue p.2 = .ok r) pairs records := by
  show (pairs.map Prod.snd).mapM listedRecord = .ok records ↔ _
  rw [Except.mapM_eq_ok_iff, List.forall₂_map_left_iff]
  simp only [listedRecord_eq_ok_iff]

theorem exists_ofDocument_list_iff :
    (∃ records, ofDocument (.list (pairs.map Prod.snd)) = .ok records) ↔
      ∀ p ∈ pairs, ∃ r, Record.ofValue p.2 = .ok r := by
  show (∃ records, (pairs.map Prod.snd).mapM listedRecord = .ok records) ↔ _
  rw [Except.exists_mapM_eq_ok_iff, List.forall_mem_map]
  simp only [listedRecord_eq_ok_iff]

/-- Pair by pair, a tag is the record with the text of the key in front. -/
theorem zipWith_of_read {tags records : Catalog}
    (htags : List.Forall₂ (fun p tag => taggedRecord p = .ok tag) pairs tags)
    (hrecords : List.Forall₂ (fun p r => Record.ofValue p.2 = .ok r) pairs records) :
    ∃ keys : List String, pairs.map (fun p => p.1.scalarText?) = keys.map some ∧
      tags = List.zipWith withKey keys records := by
  induction htags generalizing records with
  | nil => exact ⟨[], rfl, rfl⟩
  | cons htag _ ih =>
    obtain ⟨r, rest, hr, hrest, rfl⟩ := List.forall₂_cons_left_iff.mp hrecords
    obtain ⟨key, r', hkey, hr', rfl⟩ := taggedRecord_eq_ok_iff.mp htag
    obtain rfl := Except.ok.inj (hr.symm.trans hr')
    obtain ⟨keys, hkeys, rfl⟩ := ih hrest
    refine ⟨key :: keys, ?_, rfl⟩
    rw [List.map_cons, hkey, hkeys, List.map_cons]

/-- **A mapping of tags is read like the list of its values.** -/
theorem readAsTags_recordsOf (pairs : List (Value × Value)) :
    ReadAsTags pairs (recordsOf (.map pairs)) where
  ok_iff := by
    show (∃ tags, pairs.mapM taggedRecord = .ok tags) ↔ _
    rw [Except.exists_mapM_eq_ok_iff, exists_ofDocument_list_iff]
    simp only [exists_taggedRecord_iff]
    exact ⟨fun h => ⟨fun p hp => (h p hp).1, fun p hp => (h p hp).2⟩,
      fun h p hp => ⟨h.1 p hp, h.2 p hp⟩⟩
  ok_eq tags records htags hrecords := by
    have htags := Except.mapM_eq_ok_iff.mp htags
    have hrecords := ofDocument_list_eq_ok_iff.mp hrecords
    exact ⟨htags.length_eq.symm, hrecords.length_eq.symm, zipWith_of_read htags hrecords⟩
  error_iff fault := by
    show pairs.mapM taggedRecord = .error fault ↔ _
    rw [Except.mapM_eq_error_iff]
    simp only [exists_taggedRecord_iff, taggedRecord_eq_error_iff]

/-! ## 4. Documents -/

variable {text : String} {document content : Value} {before after : List (Value × Value)}

theorem decode_of_load (h : Yaml.load? text = some document) :
    decode text = ofDocument document := by
  rw [decode, h]

theorem isContentKey_iff {key : Value} : isContentKey key = true ↔ key = .text "content" := by
  cases key <;> simp [isContentKey, contentKey]

theorem contentOf_of_plain (h : ∀ p ∈ pairs, p.1 ≠ .text "content") :
    contentOf (.map pairs) = .map pairs := by
  have hnone : (pairs.find? fun p => isContentKey p.1) = none :=
    List.find?_eq_none.mpr fun p hp => mt isContentKey_iff.mp (h p hp)
  rw [contentOf, hnone]
  rfl

/-- What stands under the content key is the content, whatever stands around it and in it. -/
theorem contentOf_wrapped (h : ∀ p ∈ before, p.1 ≠ .text "content") :
    contentOf (.map (before ++ (.text "content", content) :: after)) = content := by
  have hnone : (before.find? fun p => isContentKey p.1) = none :=
    List.find?_eq_none.mpr fun p hp => mt isContentKey_iff.mp (h p hp)
  rw [contentOf, List.find?_append, hnone, Option.none_or, List.find?_cons_of_pos]
  · rfl
  · rfl

theorem contentOf_of_not_wrapped
    (h : ∀ pairs, content = .map pairs → ∀ p ∈ pairs, p.1 ≠ .text "content") :
    contentOf content = content := by
  cases content with
  | map pairs => exact contentOf_of_plain (h pairs rfl)
  | _ => rfl

/-- **Both layouts agree.** A mapping without the content key is read like the list of its values:
it can be read where its keys are texts, numbers or truth values and the list can be read; its tags
are then those of the list with the text of the key put in front of their aliases; and otherwise
there is no tag at all, and the fault is that of the first pair that cannot be read. -/
theorem mapping_reads_like_list (h : ∀ p ∈ pairs, p.1 ≠ .text "content") :
    ReadAsTags pairs (ofDocument (.map pairs)) ∧
      ∀ text, Yaml.load? text = some (.map pairs) → ReadAsTags pairs (decode text) := by
  have hread : ReadAsTags pairs (ofDocument (.map pairs)) := by
    rw [ofDocument, contentOf_of_plain h]
    exact readAsTags_recordsOf pairs
  exact ⟨hread, fun text htext => decode_of_load htext ▸ hread⟩

/-- A pair with a record and one with a number for its key and nothing for its value; and a mapping
with two faults, of which the first one counts. -/
theorem mapping_reads_like_list_mixed :
    let smile : Value × Value := (.text "smile",
      .map [(.text "name", .text "Smile"), (.text "alias", .list [.text "smiling"])])
    let pairs : List (Value × Value) := [smile, (.number (.whole 100), .null)]
    let faulty : List (Value × Value) := [smile, (.null, .null), (.text "frown", .text "Frown")]
    (∀ p ∈ pairs, p.1 ≠ .text "content") ∧ (∀ p ∈ faulty, p.1 ≠ .text "content") ∧
      ofDocument (.map pairs) =
        .ok [{ name := "Smile", aliases := ["smile", "smiling"] }, { aliases := ["100"] }] ∧
      ofDocument (.map faulty) = .error (.keyNotScalar .null) := by
  intro smile pairs faulty
  have hpairs : ∀ p ∈ pairs, p.1 ≠ .text "content" := by simp [pairs, smile]
  have hfaulty : ∀ p ∈ faulty, p.1 ≠ .text "content" := by simp [faulty, smile]
  refine ⟨hpairs, hfaulty, ?_, ?_⟩
  · obtain ⟨hread, -⟩ := mapping_reads_like_list hpairs
    have hlist : ofDocument (.list (pairs.map Prod.snd)) =
        .ok [{ name := "Smile", aliases := ["smiling"] }, {}] := rfl
    have hscalars : ∀ p ∈ pairs, p.1.IsScalar :=
      List.forall_mem_cons.mpr ⟨.text _, List.forall_mem_singleton.mpr (.number _)⟩
    obtain ⟨tags, htags⟩ := hread.ok_iff.mpr ⟨hscalars, _, hlist⟩
    obtain ⟨-, -, keys, hkeys, rfl⟩ := hread.ok_eq _ _ htags hlist
    have hsame : ["smile", "100"] = keys :=
      List.map_injective_iff.mpr (fun _ _ => Option.some.inj) hkeys
    rw [htags, ← hsame]
    rfl
  · obtain ⟨hread, -⟩ := mapping_reads_like_list hfaulty
    refine (hread.error_iff _).mpr ⟨[smile], (.null, .null), _, rfl, ?_, Or.inl ⟨?_, rfl⟩⟩
    · refine List.forall_mem_singleton.mpr ⟨.text _, ?_⟩
      exact ⟨{ name := "Smile", aliases := ["smiling"] }, rfl⟩
    · rintro ⟨⟩

/-- **The content key is transparent.** A document with a value under the content key is read like
the value on its own, wherever the key stands and whatever else there is, unless the value is a
mapping with that key in turn. A mapping there is always read as one of tags, so the key within it
is a tag like any other. -/
theorem content_reads_like_document (h : ∀ p ∈ before, p.1 ≠ .text "content") :
    let document : Value := .map (before ++ (.text "content", content) :: after)
    ((∀ pairs, content = .map pairs → ∀ p ∈ pairs, p.1 ≠ .text "content") →
      ofDocument document = ofDocument content ∧
      ∀ text inner, Yaml.load? text = some document → Yaml.load? inner = some content →
        decode text = decode inner) ∧
    ∀ pairs, content = .map pairs → ReadAsTags pairs (ofDocument document) := by
  intro document
  have hdocument : ofDocument document = recordsOf content := by
    rw [ofDocument, contentOf_wrapped h]
  refine ⟨fun hcontent => ?_, ?_⟩
  · have hsame : ofDocument document = ofDocument content := by
      rw [hdocument, ofDocument, contentOf_of_not_wrapped hcontent]
    refine ⟨hsame, fun text inner htext hinner => ?_⟩
    rw [decode_of_load htext, decode_of_load hinner, hsame]
  · rintro pairs rfl
    rw [hdocument]
    exact readAsTags_recordsOf pairs

/-- Names of the file around the content, which would be no records; and within the content the
content key once more, which then is a tag. -/
theorem content_reads_like_document_named :
    let before : List (Value × Value) := [(.text "name", .text "Faces"), (.null, .bool true)]
    let after : List (Value × Value) := [(.list [], .text "more")]
    let document (content : Value) : Value := .map (before ++ (.text "content", content) :: after)
    let inner : List (Value × Value) :=
      [(.text "content", .map [(.text "description", .null)])]
    (∀ p ∈ before, p.1 ≠ .text "content") ∧
      ofDocument (document (.text "Smile")) = .error (.noTags (.text "Smile")) ∧
      ofDocument (document (.map inner)) = .ok [{ aliases := ["content"] }] ∧
      ofDocument (.map inner) = .ok [{ aliases := ["description"] }] := by
  intro before after document inner
  have hbefore : ∀ p ∈ before, p.1 ≠ .text "content" := by simp [before]
  refine ⟨hbefore, ?_, ?_, rfl⟩
  · obtain ⟨hsame, -⟩ := @content_reads_like_document (.text "Smile") before after hbefore
    exact (hsame fun pairs hmap => by cases hmap).1
  · obtain ⟨-, htags⟩ := @content_reads_like_document (.map inner) before after hbefore
    have hread : ReadAsTags inner (ofDocument (document (.map inner))) := htags inner rfl
    have hlist : ofDocument (.list (inner.map Prod.snd)) = .ok [{}] := rfl
    obtain ⟨tags, hok⟩ := hread.ok_iff.mpr ⟨List.forall_mem_singleton.mpr (.text _), _, hlist⟩
    obtain ⟨-, -, keys, hkeys, rfl⟩ := hread.ok_eq _ _ hok hlist
    have hsame : ["content"] = keys :=
      List.map_injective_iff.mpr (fun _ _ => Option.some.inj) hkeys
    rw [hok, ← hsame]
    rfl

end TagFile
end PromptTags
