/-
Tokens that are merged into a selection.

An import goes over the tags one by one, and each of them may pick a name and gives it a weight. What
comes out in the end is said without this order of events (`entries_importTags`): the names that are
not there yet are picked first, each where it occurs for the first time, and then every entry takes
the weight of the last tag that has its name. The induction is on the tags. One tag more in front
picks its name, and the weight it gives counts only where none of the others has the same name, so
that the last weight of all tags is the last one of the others, after the first has been given
(`takeLast_cons`).

In a selection that has been merged with some tags, all of their names are there and have their
weights, so merging it with them once more changes nothing (`importTags_importTags`).
-/
import PromptTags.Proofs.Selection.Operations

set_option autoImplicit false

namespace PromptTags

open Text

/-! ## 1. Tags under trimmed names -/

def Tag.trimmed (t : Tag) : Tag := { t with name := trim t.name }

theorem Tag.name_trimmed (t : Tag) : t.trimmed.name = trim t.name := rfl

theorem Tag.weight_trimmed (t : Tag) : t.trimmed.weight = t.weight := rfl

namespace Selection

/-- Some tags under their trimmed names, without the blank ones. -/
def keyed (ts : List Tag) : List Tag := (ts.map Tag.trimmed).filter (·.name ≠ "")

/-- What an import takes from some tokens: all tags in them, also those in groups, from left to
right, each with its own weight. -/
def taken (tokens : List Prompt.Token) : List Tag := keyed (tokens.flatMap Prompt.Token.leaves)

variable {s : Selection} {t : Tag} {ts : List Tag}

theorem keyed_cons_of_blank (h : trim t.name = "") (ts : List Tag) : keyed (t :: ts) = keyed ts := by
  simp [keyed, Tag.trimmed, h]

theorem keyed_cons_of_ne (h : trim t.name ≠ "") (ts : List Tag) :
    keyed (t :: ts) = t.trimmed :: keyed ts := by
  simp [keyed, Tag.trimmed, h]

theorem ne_empty_of_mem_keyed (h : t ∈ keyed ts) : t.name ≠ "" := by
  simpa using (List.mem_filter.mp h).2

/-! ## 2. The last weight of a name -/

/-- The weight of the last tag with a name. -/
def lastWeight? (ts : List Tag) (name : String) : Option Float :=
  (ts.reverse.find? (·.name == name)).map Tag.weight

/-- An entry with the last weight that some tags have for it. -/
def takeLast (ts : List Tag) (e : Entry) : Entry :=
  { e with weight := (lastWeight? ts e.name).getD e.weight }

theorem lastWeight?_cons (t : Tag) (ts : List Tag) (name : String) :
    lastWeight? (t :: ts) name
      = (lastWeight? ts name).or (if t.name = name then some t.weight else none) := by
  rw [lastWeight?, List.reverse_cons, List.find?_append, Option.map_or, ← lastWeight?]
  by_cases h : t.name = name
  · simp [h]
  · simp [h]

theorem lastWeight?_eq_none_iff {name : String} :
    lastWeight? ts name = none ↔ name ∉ ts.map Tag.name := by
  simp [lastWeight?]

/-- It is the weight of the tag behind which no other one has the name. -/
theorem lastWeight?_append_cons {front back : List Tag} (hlast : t.name ∉ back.map Tag.name) :
    lastWeight? (front ++ t :: back) t.name = some t.weight := by
  induction front with
  | nil =>
    rw [List.nil_append, lastWeight?_cons, lastWeight?_eq_none_iff.mpr hlast, if_pos rfl]
    rfl
  | cons u front ih => rw [List.cons_append, lastWeight?_cons, ih, Option.some_or]

/-- **One tag more in front** gives its weight first. -/
theorem takeLast_cons (t : Tag) (ts : List Tag) (e : Entry) :
    takeLast (t :: ts) e = takeLast ts (e.reweigh t.name fun _ => t.weight) := by
  rw [takeLast, takeLast, lastWeight?_cons, Entry.reweigh, Entry.hasName]
  by_cases h : e.name = t.name
  · rw [if_pos h.symm, if_pos (beq_iff_eq.mpr h), h]
    cases lastWeight? ts t.name <;> rfl
  · rw [if_neg (Ne.symm h), if_neg (by simpa using h), Option.or_none]

theorem takeLast_takeLast (ts : List Tag) (e : Entry) :
    takeLast ts (takeLast ts e) = takeLast ts e := by
  simp only [takeLast]
  cases lastWeight? ts e.name <;> rfl

theorem name_takeLast (ts : List Tag) (e : Entry) : (takeLast ts e).name = e.name := rfl

/-! ## 3. New names -/

theorem eraseDups_filter (p : String → Bool) (ns : List String) :
    (ns.filter p).eraseDups = ns.eraseDups.filter p := by
  induction hn : ns.length using Nat.strong_induction_on generalizing ns with
  | _ n ih =>
    subst hn
    cases ns with
    | nil => rfl
    | cons a ns =>
      have hlt : (ns.filter (!· == a)).length < (a :: ns).length :=
        Nat.lt_succ_of_le (List.length_filter_le _ ns)
      rw [List.eraseDups_cons]
      by_cases ha : p a = true
      · rw [List.filter_cons_of_pos ha, List.filter_cons_of_pos ha, List.eraseDups_cons,
          List.filter_comm, ih _ hlt _ rfl]
      · rw [List.filter_cons_of_neg ha, List.filter_cons_of_neg ha, ← ih _ hlt _ rfl,
          List.filter_filter]
        congr 1
        apply List.filter_congr
        intro b _
        by_cases hb : b = a
        · subst hb
          simp [ha]
        · simp [hb]

/-- The names of some tags that a selection does not have, each where it occurs first. -/
def newNames (s : Selection) (ts : List Tag) : List String :=
  (ts.map Tag.name).eraseDups.filter (· ∉ s.names)

/-- The entry of a name that has just been picked. -/
def fresh (name : String) : Entry := ⟨name, none, defaultWeight⟩

theorem names_map_fresh (ns : List String) : (ns.map fresh).map Entry.name = ns := by
  rw [List.map_map]
  exact List.map_id ns

theorem newNames_congr {r : Selection} (h : r.names = s.names) (ts : List Tag) :
    r.newNames ts = s.newNames ts := by
  rw [newNames, newNames, h]

theorem not_mem_of_mem_newNames {n : String} (h : n ∈ s.newNames ts) : n ∉ s.names := by
  simpa using (List.mem_filter.mp h).2

theorem newNames_cons_of_mem (h : t.name ∈ s.names) (ts : List Tag) :
    s.newNames (t :: ts) = s.newNames ts := by
  rw [newNames, List.map_cons, List.eraseDups_cons, List.filter_cons, if_neg (by simpa using h),
    eraseDups_filter, List.filter_filter, newNames]
  apply List.filter_congr
  intro n _
  by_cases hn : n = t.name
  · subst hn
    simp [h]
  · simp [hn]

/-- A name that is new comes first, and then those that are new besides. -/
theorem newNames_cons_of_not_mem {r : Selection} (h : t.name ∉ s.names)
    (hr : r.names = s.names ++ [t.name]) (ts : List Tag) :
    s.newNames (t :: ts) = t.name :: r.newNames ts := by
  rw [newNames, List.map_cons, List.eraseDups_cons, List.filter_cons, if_pos (by simpa using h),
    eraseDups_filter, List.filter_filter, newNames, hr]
  congr 1
  apply List.filter_congr
  intro n _
  simp only [List.mem_append, List.mem_singleton]
  by_cases hn : n = t.name <;> simp [hn]

/-! ## 4. An import -/

/-- Picking the name of the first tag leaves the other new names to be picked. -/
theorem entries_add_newNames (hne : trim t.name ≠ "") (ts : List Tag) :
    (s.add t.name none).2.entries ++ ((s.add t.name none).2.newNames ts).map fresh
      = s.entries ++ (s.newNames (t.trimmed :: ts)).map fresh := by
  by_cases hmem : trim t.name ∈ s.names
  · have hrefused : ¬ s.IsNew t.name := fun h => h.2 hmem
    rw [add_of_not_isNew hrefused, newNames_cons_of_mem (t := t.trimmed) hmem]
  · have hnew : s.IsNew t.name := ⟨hne, hmem⟩
    have hcons := newNames_cons_of_not_mem (t := t.trimmed) hmem (names_picked s t.name none) ts
    rw [add_of_isNew hnew, hcons, Tag.name_trimmed, List.map_cons, picked, List.append_assoc,
      List.singleton_append, fresh]

/-- A blank name is not picked, and so there is none to be given a weight. -/
theorem importTag_of_blank (h : "" ∉ s.names) (hblank : trim t.name = "") : s.importTag t = s := by
  have hrefused : ¬ s.IsNew t.name := fun hnew => hnew.1 hblank
  rw [importTag_eq, add_of_not_isNew hrefused, updateWeight, hblank, reweigh_of_not_mem h]

theorem not_mem_names_add (h : "" ∉ s.names) (name : String) :
    "" ∉ (s.add name none).2.names := by
  by_cases hnew : s.IsNew name
  · rw [add_of_isNew hnew, names_picked, List.mem_append, List.mem_singleton]
    rintro (hmem | hname)
    · exact h hmem
    · exact hnew.1 hname.symm
  · rw [add_of_not_isNew hnew]
    exact h

theorem mem_names_add (hne : trim t.name ≠ "") : trim t.name ∈ (s.add t.name none).2.names := by
  rw [mem_names_add_iff]
  by_cases hmem : trim t.name ∈ s.names
  · exact Or.inl hmem
  · exact Or.inr ⟨hne, hmem⟩

theorem names_importTag (s : Selection) (t : Tag) :
    (s.importTag t).names = (s.add t.name none).2.names := names_updateWeight _ _ _

/-- **What an import leaves**: the entries from before, and behind them the new names where they
occur first, all with the weights that the last tags have for them. -/
theorem entries_importTags (h : "" ∉ s.names) (ts : List Tag) :
    (s.importTags ts).entries
      = (s.entries ++ (s.newNames (keyed ts)).map fresh).map (takeLast (keyed ts)) := by
  induction ts generalizing s with
  | nil =>
    have hnone : takeLast (keyed []) = id := funext fun e => rfl
    rw [importTags_nil, hnone, List.map_id]
    simp [newNames, keyed]
  | cons t ts ih =>
    rw [importTags_cons]
    by_cases hblank : trim t.name = ""
    · rw [importTag_of_blank h hblank, keyed_cons_of_blank hblank]
      exact ih h
    · have hnames := names_importTag s t
      have hkeep : "" ∉ (s.importTag t).names := by
        rw [hnames]
        exact not_mem_names_add h t.name
      -- The first tag's weight goes to its entry, and not to a name that is still to be picked.
      have hothers : trim t.name ∉
          (((s.add t.name none).2.newNames (keyed ts)).map fresh).map Entry.name := by
        rw [names_map_fresh]
        exact fun hmem => not_mem_of_mem_newNames hmem (mem_names_add hblank)
      have hcons : takeLast (t.trimmed :: keyed ts)
          = takeLast (keyed ts) ∘ Entry.reweigh (trim t.name) fun _ => t.weight := by
        funext e
        rw [takeLast_cons, Function.comp_apply, Tag.name_trimmed, Tag.weight_trimmed]
      rw [ih hkeep, newNames_congr hnames, keyed_cons_of_ne hblank, ← entries_add_newNames hblank,
        hcons, ← List.map_map, List.map_append (f := Entry.reweigh _ _), reweigh_of_not_mem hothers,
        importTag_eq, updateWeight]

/-! ## 5. What has been merged -/

theorem names_importTags (h : "" ∉ s.names) (ts : List Tag) :
    (s.importTags ts).names = s.names ++ s.newNames (keyed ts) := by
  rw [names, entries_importTags h, List.map_map, List.map_append, names]
  have hname : Entry.name ∘ takeLast (keyed ts) = Entry.name := rfl
  rw [hname, names_map_fresh]

/-- All names that were imported are there. -/
theorem mem_names_importTags (h : "" ∉ s.names) {n : String} (hn : n ∈ (keyed ts).map Tag.name) :
    n ∈ (s.importTags ts).names := by
  rw [names_importTags h, List.mem_append]
  by_cases hmem : n ∈ s.names
  · exact Or.inl hmem
  · right
    rw [newNames, List.mem_filter, List.mem_eraseDups]
    exact ⟨hn, by simpa using hmem⟩

theorem not_mem_names_importTags (h : "" ∉ s.names) (ts : List Tag) :
    "" ∉ (s.importTags ts).names := by
  rw [names_importTags h, List.mem_append, not_or]
  refine ⟨h, ?_⟩
  intro hmem
  have hkeyed := List.mem_eraseDups.mp (List.mem_filter.mp hmem).1
  obtain ⟨u, hu, hname⟩ := List.mem_map.mp hkeyed
  exact ne_empty_of_mem_keyed hu hname

/-- **Importing the same tags again changes nothing.** -/
theorem importTags_importTags (h : "" ∉ s.names) (ts : List Tag) :
    (s.importTags ts).importTags ts = s.importTags ts := by
  have hnone : (s.importTags ts).newNames (keyed ts) = [] := by
    rw [newNames, List.filter_eq_nil_iff]
    intro n hn
    have hmem := mem_names_importTags h (List.mem_eraseDups.mp hn)
    simpa using hmem
  have hentries : ((s.importTags ts).importTags ts).entries = (s.importTags ts).entries := by
    rw [entries_importTags (not_mem_names_importTags h ts), hnone, List.map_nil, List.append_nil]
    nth_rewrite 1 [entries_importTags h]
    rw [List.map_map, entries_importTags h]
    exact List.map_congr_left fun e _ => takeLast_takeLast (keyed ts) e
  cases hr : (s.importTags ts).importTags ts
  cases hs : s.importTags ts
  rw [hr, hs] at hentries
  exact congrArg Selection.mk hentries

/-- Some tags have been merged into the selection `s`, and `r` is what it has become. The names are
those from before and then the new ones, each where it occurs first; every imported name has the
weight of its last tag; the new entries have no label, and those from before keep theirs and, unless
their names were imported, their weights. -/
structure Merged (s : Selection) (ts : List Tag) (r : Selection) : Prop where
  names : r.names = s.names ++ (ts.map Tag.name).eraseDups.filter (· ∉ s.names)
  weights : ∀ (n : String) (w : Float) (front back : List Tag), ts = front ++ ⟨n, w⟩ :: back →
    n ∉ back.map Tag.name → n ∈ r.names ∧ ∀ e ∈ r.entries, e.name = n → e.weight = w
  unlabelled : ∀ (i : ℕ) (e : Entry), s.size ≤ i → r.entries[i]? = some e → e.display? = none
  kept : ∀ (i : ℕ) (d : Entry), s.entries[i]? = some d → ∃ e : Entry,
    r.entries[i]? = some e ∧ e.name = d.name ∧ e.display? = d.display? ∧
      (d.name ∉ ts.map Tag.name → e.weight = d.weight)

theorem merged_importTags (h : "" ∉ s.names) (ts : List Tag) :
    Merged s (keyed ts) (s.importTags ts) where
  names := names_importTags h ts
  weights := by
    intro n w front back hsplit hlast
    constructor
    · apply mem_names_importTags h
      rw [hsplit]
      simp
    · intro e he hname
      rw [entries_importTags h] at he
      obtain ⟨d, -, rfl⟩ := List.mem_map.mp he
      have hweight : lastWeight? (keyed ts) d.name = some w := by
        rw [← name_takeLast (keyed ts) d, hname, hsplit]
        exact lastWeight?_append_cons (t := ⟨n, w⟩) hlast
      simp [takeLast, hweight]
  unlabelled := by
    intro i e hi he
    rw [entries_importTags h, List.getElem?_map, List.getElem?_append_right hi] at he
    obtain ⟨d, hd, rfl⟩ := Option.map_eq_some_iff.mp he
    obtain ⟨n, -, rfl⟩ := List.mem_map.mp (List.mem_of_getElem? hd)
    rfl
  kept := by
    intro i d hd
    have hi : i < s.entries.length := (List.getElem?_eq_some_iff.mp hd).1
    refine ⟨takeLast (keyed ts) d, ?_, rfl, rfl, ?_⟩
    · rw [entries_importTags h, List.getElem?_map, List.getElem?_append_left hi, hd]
      rfl
    · intro hnot
      have hweight : lastWeight? (keyed ts) d.name = none := lastWeight?_eq_none_iff.mpr hnot
      simp [takeLast, hweight]

theorem importTokens_eq (s : Selection) (tokens : List Prompt.Token) :
    s.importTokens tokens = s.importTags (tokens.flatMap Prompt.Token.leaves) := rfl

/-- **What an import does.** All tags of the tokens are merged, under their trimmed names and
without the blank ones. So tokens can be imported in parts, and importing them twice is importing
them once. The names of a selection are keys (`wellFormed_run`), and so none of them is blank. -/
theorem importTokens_merges (h : "" ∉ s.names) (tokens more : List Prompt.Token) :
    Merged s (taken tokens) (s.importTokens tokens) ∧
      s.importTokens (tokens ++ more) = (s.importTokens tokens).importTokens more ∧
      (s.importTokens tokens).importTokens tokens = s.importTokens tokens := by
  rw [importTokens_eq, importTokens_eq, importTokens_eq, importTokens_eq, List.flatMap_append]
  exact ⟨merged_importTags h _, importTags_append s _ _, importTags_importTags h _⟩

/-- A label stays, a blank name is left out, and of a name that occurs twice the last weight
counts. -/
theorem importTokens_merges_nested :
    let s : Selection := { entries := [⟨"keep", some "Keep", 2.0⟩, ⟨"a", some "A", 1.0⟩] }
    let tokens := [.group [.plain " b " 3.0, .plain "  " 5.0, .group [.plain "a" 4.0] 7.0] 9.0,
      .plain "b" 6.0]
    let r : Selection :=
      { entries := [⟨"keep", some "Keep", 2.0⟩, ⟨"a", some "A", 4.0⟩, ⟨"b", none, 6.0⟩] }
    "" ∉ s.names ∧ taken tokens = [⟨"b", 3.0⟩, ⟨"a", 4.0⟩, ⟨"b", 6.0⟩] ∧
      Merged s [⟨"b", 3.0⟩, ⟨"a", 4.0⟩, ⟨"b", 6.0⟩] r ∧ s.importTokens tokens = r ∧
      s.importTokens (tokens ++ tokens) = r ∧ r.importTokens tokens = r := by
  intro s tokens r
  have hblank : "" ∉ s.names := by decide
  have htaken : taken tokens = [⟨"b", 3.0⟩, ⟨"a", 4.0⟩, ⟨"b", 6.0⟩] := by decide +kernel
  have hresult : s.importTokens tokens = r := by decide +kernel
  obtain ⟨hmerged, happend, htwice⟩ := importTokens_merges hblank tokens tokens
  rw [htaken, hresult] at hmerged
  rw [hresult] at happend htwice
  exact ⟨hblank, htaken, hmerged, hresult, happend.trans htwice, htwice⟩

end Selection

end PromptTags
