/-
Records that are written in JSON and read again.

A `Format` is one type of records with how they are written and read. That its records come back is
a statement about text (`Format.RoundTrips`), and it follows from three laws about values
(`Format.Lawful`): a record is read from what its value is read as just when every weight in it is
read back from its digits; what is read has finite weights; and it is in order. The laws hold of
tags and entries, which have a weight each, and of catalog records, which have none.
-/
import PromptTags.Json.Catalog
import PromptTags.Json.Tags
import PromptTags.Proofs.Json.Range
import PromptTags.Proofs.Json.Values
import PromptTags.Proofs.Results

set_option autoImplicit false

namespace PromptTags

namespace Json

/-! ## 1. Weights -/

/-- Whether the digits that a double is written with are read as the same double. -/
def ReadsBack (x : Float) : Prop := (read? (Value.ofFloat x).compact).bind Value.float? = some x

instance (x : Float) : Decidable (ReadsBack x) := inferInstanceAs (Decidable (_ = _))

theorem readsBack_iff (x : Float) : ReadsBack x ↔ (Value.ofFloat x).reread.float? = some x := by
  rw [ReadsBack, read?_compact, Option.bind_some]

/-- A double that is not finite is written as null, and null is read as none. -/
theorem ReadsBack.isFinite {x : Float} (h : ReadsBack x) : x.isFinite = true := by
  by_contra hnot
  rw [readsBack_iff, Value.ofFloat, if_neg hnot] at h
  cases h

/-- The steps of the computation round for themselves, so some doubles come back as a neighbour. -/
example : ¬ ReadsBack 1e-23 := by decide +kernel

/-! ## 2. Formats -/

/-- A type of records, and how they are written as JSON values and read from them. -/
structure Format (α : Type) where
  toJson : α → Value
  ofJson? : Value → Option α
  /-- The weights in a record. -/
  weights : α → List Float
  /-- How many groups or directories are inside each other. -/
  depth : α → Nat
  /-- What is in a record in a certain order is so. -/
  Ordered : α → Prop

namespace Format

variable {α : Type}

def encode (f : Format α) (x : α) : String := (f.toJson x).compact

def decode? (f : Format α) (text : String) : Option α := (read? text).bind f.ofJson?

/-- Records with no more than 40 groups or directories inside each other come back, provided that
their finite weights are read back from their digits: a record comes back from its text just when
all its weights are finite, and one that was read from some text always does, with the same text
again. -/
def RoundTrips (f : Format α) : Prop :=
  (∀ x, f.Ordered x → f.depth x ≤ 40 → (∀ w ∈ f.weights x, w.isFinite = true → ReadsBack w) →
    (f.decode? (f.encode x) = some x ↔ ∀ w ∈ f.weights x, w.isFinite = true)) ∧
  ∀ text x, f.decode? text = some x → f.depth x ≤ 40 →
    (∀ w ∈ f.weights x, w.isFinite = true → ReadsBack w) →
    f.decode? (f.encode x) = some x ∧
      ∀ y, f.decode? (f.encode x) = some y → f.encode y = f.encode x

/-- The laws of a format in terms of values. -/
structure Lawful (f : Format α) : Prop where
  reread : ∀ x, f.Ordered x → f.depth x ≤ 40 →
    (f.ofJson? (f.toJson x).reread = some x ↔ ∀ w ∈ f.weights x, ReadsBack w)
  finite : ∀ {v x}, v.Finite → f.ofJson? v = some x → ∀ w ∈ f.weights x, w.isFinite = true
  ordered : ∀ {v x}, f.ofJson? v = some x → f.Ordered x

theorem decode?_encode (f : Format α) (x : α) :
    f.decode? (f.encode x) = f.ofJson? (f.toJson x).reread := by
  rw [decode?, encode, read?_compact, Option.bind_some]

/-- **A record comes back just when each of its weights does.** -/
theorem Lawful.decode?_encode_eq_some_iff {f : Format α} (h : f.Lawful) {x : α}
    (hordered : f.Ordered x) (hdepth : f.depth x ≤ 40) :
    f.decode? (f.encode x) = some x ↔ ∀ w ∈ f.weights x, ReadsBack w := by
  rw [decode?_encode, h.reread x hordered hdepth]

theorem Lawful.roundTrips {f : Format α} (h : f.Lawful) : f.RoundTrips := by
  have hback : ∀ x, f.Ordered x → f.depth x ≤ 40 →
      (∀ w ∈ f.weights x, w.isFinite = true → ReadsBack w) →
      (f.decode? (f.encode x) = some x ↔ ∀ w ∈ f.weights x, w.isFinite = true) := by
    intro x hordered hdepth hweights
    rw [h.decode?_encode_eq_some_iff hordered hdepth]
    exact forall₂_congr fun w hw => ⟨ReadsBack.isFinite, hweights w hw⟩
  refine ⟨hback, fun text x htext hdepth hweights => ?_⟩
  obtain ⟨v, hv, hx⟩ := Option.bind_eq_some_iff.mp htext
  have hsame := (hback x (h.ordered hx) hdepth hweights).mpr (h.finite (finite_of_read? hv) hx)
  refine ⟨hsame, fun y hy => ?_⟩
  rw [hsame] at hy
  rw [Option.some.inj hy]

end Format

/-! ## 3. Fields -/

namespace Value

variable {v w : Value} {name : String} {names : List String} {found : List (Option Value)}

theorem finite_field? {fields : List (Option String × Value)} (h : ∀ f ∈ fields, f.2.Finite)
    {v? : Option Value} (hv : field? name fields = some v?) : ∀ v ∈ v?, v.Finite := by
  unfold field? at hv
  split at hv
  · obtain rfl := Option.some.inj hv
    exact nofun
  next f hf =>
    obtain rfl := Option.some.inj hv
    have hmem : f ∈ fields := List.mem_of_mem_filter (by rw [hf]; exact List.mem_singleton_self f)
    intro v hv
    obtain rfl := Option.some.inj hv
    exact h f hmem
  · cases hv

/-- What the fields of a record hold is a part of it. -/
theorem Finite.record? (h : v.Finite) (hfound : v.record? names = some found) :
    ∀ w? ∈ found, ∀ w ∈ w?, w.Finite := by
  cases h with
  | object hfields =>
    simp only [Value.record?] at hfound
    split_ifs at hfound
    intro w? hw?
    obtain ⟨name, -, hname⟩ := Option.exists_of_mem_mapM hfound hw?
    exact finite_field? hfields hname
  | list hitems =>
    simp only [Value.record?] at hfound
    split_ifs at hfound
    obtain rfl := Option.some.inj hfound
    intro w? hw? w hw
    obtain ⟨n, -, rfl⟩ := List.mem_map.mp hw?
    exact hitems w (List.mem_of_getElem? hw)
  | _ => cases hfound

theorem Finite.float? (h : v.Finite) {x : Float} (hx : v.float? = some x) : x.isFinite = true := by
  cases h with
  | number h =>
    obtain ⟨n, hn, rfl⟩ := Option.map_eq_some_iff.mp hx
    exact h n hn
  | _ => cases hx

theorem texts?_reread (names : List String) :
    (list (names.map ofText)).reread.texts? = some names := by
  rw [reread, rereadItems_eq_map, texts?]
  induction names with
  | nil => rfl
  | cons name names ih =>
    simp only [List.map_cons]
    exact Option.mapM_cons_eq_some_iff.mpr ⟨rfl, ih⟩

end Value

end Json

open Json (Value Format ReadsBack)

/-! ## 4. Tags and entries -/

def Tag.format : Format Tag where
  toJson := toJson
  ofJson? := ofJson?
  weights t := [t.weight]
  depth _ := 0
  Ordered _ := True

theorem Tag.lawful_format : Tag.format.Lawful where
  reread t _ _ := by
    have hfields : t.toJson.reread.record? ["name", "weight"] =
        some [some (.ofText t.name), some (Value.ofFloat t.weight).reread] := rfl
    show Tag.ofJson? t.toJson.reread = some t ↔ ∀ w ∈ [t.weight], ReadsBack w
    rw [List.forall_mem_singleton, Json.readsBack_iff, Tag.ofJson?, hfields]
    cases t
    simp [Value.ofText, Value.text?, Option.bind_eq_some_iff]
  finite {v t} hv ht := by
    simp only [Tag.format, Tag.ofJson?] at ht
    split at ht
    · next hfound =>
      simp only [Option.bind_eq_bind, Option.bind_eq_some_iff] at ht
      obtain ⟨name, -, weight, hweight, ht⟩ := ht
      obtain rfl := Option.some.inj ht
      exact List.forall_mem_singleton.mpr
        ((hv.record? hfound _ (by simp) _ rfl).float? hweight)
    · cases ht
  ordered _ := trivial

def Entry.format : Format Entry where
  toJson := toJson
  ofJson? := ofJson?
  weights t := [t.weight]
  depth _ := 0
  Ordered _ := True

theorem Entry.lawful_format : Entry.format.Lawful where
  reread e _ _ := by
    have hfields : e.toJson.reread.record? ["name", "display_name", "weight"] =
        some [some (.ofText e.name), e.display?.map .ofText,
          some (Value.ofFloat e.weight).reread] := by
      obtain ⟨name, display?, weight⟩ := e
      cases display? <;> rfl
    show Entry.ofJson? e.toJson.reread = some e ↔ ∀ w ∈ [e.weight], ReadsBack w
    rw [List.forall_mem_singleton, Json.readsBack_iff, Entry.ofJson?, hfields]
    obtain ⟨name, display?, weight⟩ := e
    cases display? <;>
      simp [Value.ofText, Value.text?, Value.optionalText?, Option.bind_eq_some_iff]
  finite {v e} hv he := by
    simp only [Entry.format, Entry.ofJson?] at he
    split at he
    · next hfound =>
      simp only [Option.bind_eq_bind, Option.bind_eq_some_iff] at he
      obtain ⟨name, -, display?, -, weight, hweight, he⟩ := he
      obtain rfl := Option.some.inj he
      exact List.forall_mem_singleton.mpr
        ((hv.record? hfound _ (by simp) _ rfl).float? hweight)
    · cases he
  ordered _ := trivial

/-! ## 5. Catalog records -/

def Record.format : Format Record where
  toJson := toJson
  ofJson? := ofJson?
  weights _ := []
  depth _ := 0
  Ordered _ := True

theorem Record.lawful_format : Record.format.Lawful where
  reread r _ _ := by
    have hfields : r.toJson.reread.record? ["name", "alias", "description", "wikiURL"] =
        some [some (.ofText r.name), some (Value.list (r.aliases.map .ofText)).reread,
          r.description?.map .ofText, r.wiki?.map .ofText] := by
      obtain ⟨name, aliases, description?, wiki?⟩ := r
      cases description? <;> cases wiki? <;> rfl
    refine iff_of_true ?_ nofun
    show Record.ofJson? r.toJson.reread = some r
    rw [Record.ofJson?, hfields]
    obtain ⟨name, aliases, description?, wiki?⟩ := r
    cases description? <;> cases wiki? <;>
      simp [Value.ofText, Value.text?, Value.optionalText?, Value.texts?_reread]
  finite _ _ := nofun
  ordered _ := trivial

end PromptTags
