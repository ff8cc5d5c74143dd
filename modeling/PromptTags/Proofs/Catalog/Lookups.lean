/-
One catalog, asked in three ways.

A key can be looked up on its own, for its record or for its label, by going through the records
until one answers to it. Or the positions of all keys are listed at once, in one pass over the names
and aliases of all records, where a key that is listed already is passed over. Sorting uses the
list, labels use the search, and so both have to mean the same record.

They do. `lookup_rankKey` says what one key adds to the list, `lookup_rankKeys` what the keys of one
record add, and from them the list of a whole catalog is the search for the first record that
answers (`lookup_referenceOrder`). The empty key is in no list, although a record without a name
answers to it.
-/
import Mathlib.Data.List.Basic
import PromptTags.Catalog.Record
import PromptTags.Proofs.Keyed

set_option autoImplicit false

namespace PromptTags

/-! ## 1. Keys of a record -/

/-- A key is the name of a record or one of its aliases. -/
def Record.HasKey (r : Record) (key : String) : Prop := r.name = key ∨ key ∈ r.aliases

instance (r : Record) (key : String) : Decidable (r.HasKey key) :=
  inferInstanceAs (Decidable (_ ∨ _))

theorem Record.answersTo_iff {r : Record} {key : String} :
    r.answersTo key = true ↔ r.HasKey key := by
  simp [answersTo, HasKey]

/-- The keys that are listed for a record are those that it answers to. -/
theorem Record.mem_keys_iff {r : Record} {key : String} :
    key ∈ r.name :: r.aliases ↔ r.HasKey key := by
  simp [HasKey, eq_comm]

namespace Catalog

/-- The record at a position is the first one that has a key. -/
structure IsFirst (rs : Catalog) (key : String) (i : Nat) (r : Record) : Prop where
  here : rs[i]? = some r
  has : r.HasKey key
  first : ∀ j < i, ∀ q, rs[j]? = some q → ¬ q.HasKey key

/-! ## 2. The list of all keys -/

variable {known : Ranking} {key k : String}

theorem rankKey_of_known {i j : Nat} (h : known.lookup key = some j) :
    rankKey i known key = known := by
  unfold rankKey
  rw [h, Option.isSome_some, Bool.or_true, if_pos rfl]

theorem rankKey_of_new {i : Nat} (hkey : key ≠ "") (h : known.lookup key = none) :
    rankKey i known key = known ++ [(key, i)] := by
  have hempty : key.isEmpty = false := by simpa using hkey
  unfold rankKey
  rw [h, hempty, Option.isSome_none, Bool.or_false, if_neg Bool.false_ne_true]

/-- One key more in the list: what is known stays, and a new key gets the position. -/
theorem lookup_rankKey (i : Nat) (known : Ranking) (hk : k ≠ "") (key : String) :
    (rankKey i known key).lookup k
      = (known.lookup k).or (if key = k then some i else none) := by
  by_cases hempty : key = ""
  · have hne : key ≠ k := by
      intro h
      exact hk (h ▸ hempty)
    have hsame : rankKey i known key = known := by
      unfold rankKey
      simp [hempty]
    rw [hsame, if_neg hne, Option.or_none]
  cases hknown : known.lookup key with
  | some j =>
    rw [rankKey_of_known hknown]
    by_cases hsame : key = k
    · rw [← hsame, hknown, Option.some_or]
    · rw [if_neg hsame, Option.or_none]
  | none =>
    rw [rankKey_of_new hempty hknown, List.lookup_append]
    congr 1
    rw [Keyed.lookup_cons_ite, List.lookup_nil, if_congr eq_comm rfl rfl]

/-- The keys of one record more. -/
theorem lookup_rankKeys (i : Nat) (known : Ranking) (hk : k ≠ "") (keys : List String) :
    (keys.foldl (rankKey i) known).lookup k
      = (known.lookup k).or (if k ∈ keys then some i else none) := by
  induction keys generalizing known with
  | nil => simp
  | cons key keys ih =>
    rw [List.foldl_cons, ih, lookup_rankKey i known hk, Option.or_assoc]
    congr 1
    by_cases hsame : key = k
    · rw [if_pos hsame, Option.some_or, if_pos (List.mem_cons.mpr (Or.inl hsame.symm))]
    · have hmem : k ∈ key :: keys ↔ k ∈ keys := by
        simp [Ne.symm hsame]
      rw [if_neg hsame, Option.none_or, if_congr hmem rfl rfl]

/-- The records from some position on: the first of them that has a key gives its place. -/
theorem lookup_rankRecords (n : Nat) (known : Ranking) (hk : k ≠ "") (rs : Catalog) :
    ((rs.zipIdx n).foldl (fun known (r, i) => (r.name :: r.aliases).foldl (rankKey i) known)
        known).lookup k
      = (known.lookup k).or ((rs.position? k).map (· + n)) := by
  induction rs generalizing n known with
  | nil => simp [position?]
  | cons r rs ih =>
    have hposition : position? (r :: rs) k
        = if r.HasKey k then some 0 else (position? rs k).map (· + 1) := by
      unfold position?
      rw [List.findIdx?_cons]
      simp only [Record.answersTo_iff]
    rw [List.zipIdx_cons, List.foldl_cons, ih (n + 1), lookup_rankKeys n known hk, Option.or_assoc,
      hposition]
    congr 1
    by_cases hr : r.HasKey k
    · rw [if_pos (Record.mem_keys_iff.mpr hr), if_pos hr, Option.some_or]
      simp
    · rw [if_neg (fun h => hr (Record.mem_keys_iff.mp h)), if_neg hr, Option.none_or,
        Option.map_map]
      congr 1
      funext i
      simp only [Function.comp_apply]
      omega

/-- **The list of all keys is the search for each of them.** -/
theorem lookup_referenceOrder (hk : k ≠ "") (rs : Catalog) :
    rs.referenceOrder.lookup k = rs.position? k := by
  have h := lookup_rankRecords 0 [] hk rs
  simpa [referenceOrder] using h

/-! ## 3. Each key once -/

/-- No key is listed twice, and none is empty. -/
structure WellKeyed (known : Ranking) : Prop where
  nodup : (known.map Prod.fst).Nodup
  ne_empty : "" ∉ known.map Prod.fst

theorem mem_keys_iff_isSome {known : Ranking} :
    key ∈ known.map Prod.fst ↔ (known.lookup key).isSome = true := by
  rw [List.lookup_isSome_iff, List.mem_map]
  constructor
  · rintro ⟨p, hp, hkey⟩
    exact ⟨p, hp, beq_iff_eq.mpr hkey.symm⟩
  · rintro ⟨p, hp, hkey⟩
    exact ⟨p, hp, (beq_iff_eq.mp hkey).symm⟩

theorem wellKeyed_rankKey (h : WellKeyed known) (i : Nat) (key : String) :
    WellKeyed (rankKey i known key) := by
  by_cases hempty : key = ""
  · unfold rankKey
    simpa [hempty] using h
  cases hknown : known.lookup key with
  | some j =>
    rw [rankKey_of_known hknown]
    exact h
  | none =>
    have hnew : key ∉ known.map Prod.fst := by
      intro hmem
      rw [mem_keys_iff_isSome, hknown] at hmem
      cases hmem
    rw [rankKey_of_new hempty hknown]
    constructor
    · rw [List.map_append, List.nodup_append]
      refine ⟨h.nodup, by simp, ?_⟩
      intro a ha b hb hab
      simp only [List.map_cons, List.map_nil, List.mem_singleton] at hb
      exact hnew (hb ▸ hab ▸ ha)
    · rw [List.map_append, List.mem_append, not_or]
      refine ⟨h.ne_empty, ?_⟩
      simpa [eq_comm] using hempty

/-- The list is built by listing one key after the other. -/
theorem wellKeyed_referenceOrder (rs : Catalog) : WellKeyed rs.referenceOrder := by
  unfold referenceOrder
  apply List.foldlRecOn
  · exact ⟨by simp, by simp⟩
  · intro known hknown r _
    apply List.foldlRecOn
    · exact hknown
    · intro known hknown key _
      exact wellKeyed_rankKey hknown r.2 key

/-! ## 4. One record for all -/

theorem position?_eq_some_iff {rs : Catalog} {i : Nat} :
    rs.position? key = some i ↔ ∃ r, rs.IsFirst key i r := by
  unfold position?
  rw [List.findIdx?_eq_some_iff_getElem]
  constructor
  · rintro ⟨hi, hhas, hfirst⟩
    refine ⟨rs[i], List.getElem?_eq_getElem hi, Record.answersTo_iff.mp hhas, ?_⟩
    intro j hj q hq hkey
    rw [List.getElem?_eq_getElem (by omega), Option.some_inj] at hq
    exact hfirst j hj (hq ▸ Record.answersTo_iff.mpr hkey)
  · rintro ⟨r, hhere, hhas, hfirst⟩
    obtain ⟨hi, rfl⟩ := List.getElem?_eq_some_iff.mp hhere
    refine ⟨hi, Record.answersTo_iff.mpr hhas, ?_⟩
    intro j hj hkey
    exact hfirst j hj _ (List.getElem?_eq_getElem (by omega)) (Record.answersTo_iff.mp hkey)

/-- The record that is found is the first one. -/
theorem find?_of_isFirst {rs : Catalog} {i : Nat} {r : Record} (h : rs.IsFirst key i r) :
    rs.find? key = some r := by
  obtain ⟨hi, hr⟩ := List.getElem?_eq_some_iff.mp h.here
  unfold find?
  rw [List.find?_eq_some_iff_getElem]
  refine ⟨Record.answersTo_iff.mpr h.has, i, hi, hr, ?_⟩
  intro j hj
  rw [Bool.not_eq_true', ← Bool.not_eq_true, Record.answersTo_iff]
  exact h.first j hj _ (List.getElem?_eq_getElem (by omega))

theorem position?_isSome_iff {rs : Catalog} :
    (rs.position? key).isSome = true ↔ ∃ r ∈ rs, r.HasKey key := by
  unfold position?
  rw [List.findIdx?_isSome, List.any_eq_true]
  simp only [Record.answersTo_iff]

theorem displayName?_of_find {rs : Catalog} {r : Record} (h : rs.find? key = some r) :
    rs.displayName? key = if r.name = "" then none else some r.name := by
  unfold displayName?
  rw [h]
  simp

/-- **The lookups agree.** The empty key is not listed. Any other key is listed just where some
record has it as its name or among its aliases, it is listed once, and its position is that of the
first such record. This is the record that the search for the key finds, and its name is the label
of the key, unless it is empty. A key that no record has is found in no way. -/
theorem lookups_agree (rs : Catalog) :
    (rs.referenceOrder.map Prod.fst).Nodup ∧ "" ∉ rs.referenceOrder.map Prod.fst ∧
      ∀ key, key ≠ "" →
        (key ∈ rs.referenceOrder.map Prod.fst ↔ ∃ r ∈ rs, r.HasKey key) ∧
        (∀ i, (key, i) ∈ rs.referenceOrder → rs.referenceOrder.lookup key = some i ∧
          ∃ r, rs.IsFirst key i r ∧ rs.find? key = some r ∧
            rs.displayName? key = if r.name = "" then none else some r.name) ∧
        ((∀ r ∈ rs, ¬ r.HasKey key) → rs.find? key = none ∧ rs.displayName? key = none) := by
  have hkeyed := wellKeyed_referenceOrder rs
  refine ⟨hkeyed.nodup, hkeyed.ne_empty, ?_⟩
  intro key hkey
  have hlookup := lookup_referenceOrder hkey rs
  refine ⟨?_, ?_, ?_⟩
  · rw [mem_keys_iff_isSome, hlookup, position?_isSome_iff]
  · intro i hmem
    have hi := (Keyed.lookup_eq_some_iff hkeyed.nodup).mpr hmem
    obtain ⟨r, hfirst⟩ := position?_eq_some_iff.mp (hlookup.symm.trans hi)
    have hfound := find?_of_isFirst hfirst
    exact ⟨hi, r, hfirst, hfound, displayName?_of_find hfound⟩
  · intro hno
    have hnone : rs.find? key = none := by
      unfold find?
      rw [List.find?_eq_none]
      intro r hr hanswers
      exact hno r hr (Record.answersTo_iff.mp hanswers)
    refine ⟨hnone, ?_⟩
    unfold displayName?
    rw [hnone, Option.bind_none]

/-- Records that share keys: the third one is found only under its own alias, and it gives no
label. -/
theorem lookups_agree_shared :
    let smile : Record := { name := "Smile", aliases := ["smile", "grin"] }
    let grin : Record := { name := "Grin", aliases := ["grin", "", "Smile"] }
    let unnamed : Record := { aliases := ["smile", "untitled"] }
    let rs : Catalog := [smile, grin, unnamed]
    "untitled" ≠ "" ∧ ("untitled", 2) ∈ rs.referenceOrder ∧ rs.find? "untitled" = some unnamed ∧
      rs.displayName? "untitled" = none ∧
      "grin" ≠ "" ∧ ("grin", 0) ∈ rs.referenceOrder ∧ rs.find? "grin" = some smile ∧
      rs.displayName? "grin" = some "Smile" ∧
      "frown" ≠ "" ∧ (∀ r ∈ rs, ¬ r.HasKey "frown") ∧ rs.displayName? "frown" = none := by
  intro smile grin unnamed rs
  have huntitled : ("untitled", 2) ∈ rs.referenceOrder := by decide +kernel
  have hgrin : ("grin", 0) ∈ rs.referenceOrder := by decide +kernel
  have hfrown : ∀ r ∈ rs, ¬ r.HasKey "frown" := by decide +kernel
  obtain ⟨-, -, hagree⟩ := lookups_agree rs
  obtain ⟨-, r, hr, hfoundr, hlabelr⟩ := (hagree "untitled" (by decide)).2.1 2 huntitled
  obtain ⟨-, q, hq, hfoundq, hlabelq⟩ := (hagree "grin" (by decide)).2.1 0 hgrin
  obtain rfl : unnamed = r := Option.some.inj hr.here
  obtain rfl : smile = q := Option.some.inj hq.here
  exact ⟨by decide, huntitled, hfoundr, hlabelr, by decide, hgrin, hfoundq, hlabelq, by decide,
    hfrown, ((hagree "frown" (by decide)).2.2 hfrown).2⟩

end Catalog

end PromptTags
