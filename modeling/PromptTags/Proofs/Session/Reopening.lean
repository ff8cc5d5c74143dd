/-
Opening a prompt again after it was committed.

A commit writes names as they are and weights with two decimals, and the next session reads what is
there. The selection comes back, entry by entry, if no name has a delimiter in it and no weight has
a sign, and it never comes back otherwise: a name with a delimiter cannot be read at all, and what
is printed for a negative weight is read as one more name, which leaves 1.0 for the weight itself
(`reopened_iff`). Names get into a session as they are typed and weights can be lowered below zero,
so both happen in a session. Blank names, names picked twice and weights that are not finite do not,
whatever the steps were, and so nothing else can go wrong (`reopen_after_commit`).
-/
import PromptTags.Proofs.Selection.Rereading
import PromptTags.Proofs.Session.Editing

set_option autoImplicit false

namespace PromptTags

open Text Prompt Decimal

/-! ## 1. Entries that come back -/

/-- An entry as it comes back: the name is the same, a weight of 1.0 stays, and any other weight is
the double nearest to what was printed for it, which is printed the same again. -/
structure Reopened (e e' : Entry) : Prop where
  name : e'.name = e.name
  bare : e.weight = defaultWeight → e'.weight = defaultWeight
  weighted : e.weight ≠ defaultWeight →
    printed e'.weight = printed e.weight ∧ IsNearest e'.weight (decimalValue (printed e.weight))

/-- A name and a weight that can be written and read again. -/
structure Entry.Keeps (e : Entry) : Prop where
  noDelimiter : NoDelimiter e.name.toList
  unsigned : isNegative e.weight = false

theorem Entry.keeps_iff {e : Entry} :
    e.Keeps ↔ NoDelimiter e.name.toList ∧ isNegative e.weight = false :=
  ⟨fun h => ⟨h.noDelimiter, h.unsigned⟩, fun h => ⟨h.1, h.2⟩⟩

instance (e : Entry) : Decidable e.Keeps := decidable_of_iff _ Entry.keeps_iff.symm

/-- A name without delimiters that is kept in a selection can be read. -/
theorem isPlain_of_isKey {name : String} (hkey : IsKey name) (h : NoDelimiter name.toList) :
    IsPlain name.toList := by
  refine ⟨fun hnil => hkey.ne_empty (String.toList_eq_nil_iff.mp hnil), ?_, h⟩
  have htrim := congrArg String.toList hkey.trim_eq
  rw [trim, String.toList_ofList] at htrim
  exact htrim

theorem reopened_rereadTag {e : Entry} (h : Printable e.weight) :
    Reopened e ⟨(rereadTag e.tag).name, none, (rereadTag e.tag).weight⟩ := by
  refine ⟨rereadTag_name e.tag, fun hdefault => ?_, fun hother => ?_⟩
  · rw [rereadTag, if_pos (show e.tag.weight = _ from hdefault)]
    exact hdefault
  · rw [rereadTag, if_neg (show ¬ e.tag.weight = _ from hother)]
    exact ⟨printed_rereadWeight h, isNearest_rereadWeight h⟩

/-- Where a weight with a sign was written, 1.0 is read for every tag of the name. -/
theorem weight_of_mem_reread {es : List Tag} (hnodup : (es.map Tag.name).Nodup) {e t : Tag}
    (he : e ∈ es) (hweight : ¬ Printable e.weight) (ht : t ∈ es.flatMap reread)
    (hname : t.name = e.name) : t.weight = defaultWeight := by
  obtain ⟨d, hd, htd⟩ := List.mem_flatMap.mp ht
  by_cases hdefault : d.weight = defaultWeight
  · rw [reread_of_default hdefault, List.mem_singleton] at htd
    rw [htd, hdefault]
  by_cases hprintable : Printable d.weight
  · -- This tag has another name, because it is not the one that was written for the name.
    rw [reread_of_printable hdefault hprintable, List.mem_singleton] at htd
    have hsame : d.name = e.name := by
      rw [← hname, htd]
    rw [List.inj_on_of_nodup_map hnodup hd he hsame] at hprintable
    exact absurd hprintable hweight
  · rw [reread_of_not_printable hprintable, List.mem_pair] at htd
    rcases htd with rfl | rfl <;> rfl

namespace Selection

variable {s : Selection}

theorem reopened_of_keeps (hformed : s.WellFormed) (hfinite : s.FiniteWeights)
    (h : ∀ e ∈ s.entries, e.Keeps) :
    List.Forall₂ Reopened s.entries (ofText s.text).entries := by
  have hreadable : ∀ e ∈ s.entries, Readable e.tag := fun e he =>
    ⟨isPlain_of_isKey (hformed.keys e.name (List.mem_map_of_mem he)) (h e he).noDelimiter,
      hfinite e he, (h e he).unsigned⟩
  rw [entries_ofText_text hformed.nodup (List.forall_mem_map.mpr hreadable)]
  show List.Forall₂ Reopened s.entries (((s.entries.map Entry.tag).map rereadTag).map _)
  rw [List.map_map, List.map_map, List.forall₂_map_right_iff, List.forall₂_same]
  exact fun e he => reopened_rereadTag (hreadable e he).printable

theorem keeps_of_reopened (hformed : s.WellFormed)
    (h : List.Forall₂ Reopened s.entries (ofText s.text).entries) :
    ∀ e ∈ s.entries, e.Keeps := by
  obtain ⟨hlength, hget⟩ := List.forall₂_iff_get.mp h
  have hback : ∀ e ∈ s.entries, ∃ e' ∈ (ofText s.text).entries, Reopened e e' := by
    intro e he
    obtain ⟨i, hi, rfl⟩ := List.mem_iff_getElem.mp he
    have hi' : i < (ofText s.text).entries.length := by omega
    exact ⟨_, List.getElem_mem hi', hget i hi hi'⟩
  have hplain : ∀ e ∈ s.entries, IsPlain e.name.toList := by
    intro e he
    obtain ⟨e', he', hreopened⟩ := hback e he
    obtain ⟨t, ht, hname, -⟩ := mem_ofText he'
    rw [← hreopened.name, hname]
    exact (parse_readable s.text t ht).plain
  have hparse : parse s.text = s.tags.flatMap reread := by
    refine parse_serialize_eq fun t ht => ?_
    obtain ⟨e, he, rfl⟩ := List.mem_map.mp ht
    exact hplain e he
  have hnodup : (s.tags.map Tag.name).Nodup := by
    rw [names_tags]
    exact hformed.nodup
  intro e he
  refine ⟨(hplain e he).noDelimiter, ?_⟩
  by_contra hsign
  have hweight : ¬ Printable e.weight := fun hprintable => hsign hprintable.unsigned
  obtain ⟨e', he', hreopened⟩ := hback e he
  obtain ⟨t, ht, hname, hread⟩ := mem_ofText he'
  have hdefault : e'.weight = defaultWeight := by
    rw [hparse] at ht
    rw [hread]
    exact weight_of_mem_reread hnodup (List.mem_map_of_mem he) hweight ht
      (hname.symm.trans hreopened.name)
  -- The weight came back as 1.0, and is not printed as one with a sign.
  have hother : e.weight ≠ defaultWeight := by
    intro heq
    rw [heq] at hweight
    exact hweight printable_defaultWeight
  have hprinted := (hreopened.weighted hother).1
  obtain ⟨c, r, hshown, hdigit, -⟩ := printed_of_not_printable hweight
  rw [hdefault, hshown, printed_defaultWeight] at hprinted
  rw [← (List.cons.inj hprinted).1] at hdigit
  exact absurd hdigit (by decide)

/-- **A selection comes back from its text** just where each entry can be written and read. -/
theorem reopened_iff (hformed : s.WellFormed) (hfinite : s.FiniteWeights) :
    List.Forall₂ Reopened s.entries (ofText s.text).entries ↔ ∀ e ∈ s.entries, e.Keeps :=
  ⟨keeps_of_reopened hformed, reopened_of_keeps hformed hfinite⟩

end Selection

/-! ## 2. Sessions -/

namespace Session

/-- **Opening again after a commit.** Whatever was edited, the same place can be opened again, and
the selection that was committed is there, in its order, just where each of its entries can be
written and read. -/
theorem reopen_after_commit {h : Host} {c : Catalog} {w w' w'' : Surroundings} {s s' : Session}
    {text : String} (hopen : onHost h c w = .ok s) (sorts : Bool) (steps : List Step)
    (hcommit : ({ s with sortOnCommit := sorts }.run steps).commit w' = (.ok text, s', w''))
    (c' : Catalog) :
    ∃ r, onHost h c' w'' = .ok r ∧
      (List.Forall₂ Reopened s'.selection.entries r.selection.entries ↔
        ∀ e ∈ s'.selection.entries, e.Keeps) := by
  have hsound : ({ s with sortOnCommit := sorts }.run steps).Sound := by
    obtain ⟨hformed, hfinite⟩ := sound_onHost hopen
    have hstart : Sound { s with sortOnCommit := sorts } := ⟨hformed, hfinite⟩
    exact sound_run hstart steps
  have hhost : ({ s with sortOnCommit := sorts }.run steps).host? = some h := by
    obtain ⟨_, -, rfl⟩ := onHost_eq_ok_iff.mp hopen
    exact host?_run _ steps
  obtain ⟨rfl, htext, hread⟩ := commit_spec hhost hcommit
  obtain ⟨hformed, hfinite⟩ := sound_staged hsound
  refine ⟨_, onHost_eq_ok_iff.mpr ⟨text, hread, rfl⟩, ?_⟩
  rw [htext]
  exact Selection.reopened_iff hformed hfinite

/-- A prompt that was read, extended, weighted and rearranged. -/
theorem reopen_after_commit_field :
    ∃ s s' r w'', onHost .field [] { field := "(a, b):1.5" } = .ok s ∧
      (s.run [.add "c", .adjust "b" true, .reorder "c" (.before "a")]).commit {}
        = (.ok "c, a:1.50, b:1.55", s', w'') ∧
      onHost .field [] w'' = .ok r ∧
      List.Forall₂ Reopened s'.selection.entries r.selection.entries := by
  let s : Session := { selection := Selection.ofText "(a, b):1.5", host? := some .field }
  let s' : Session := s.run [.add "c", .adjust "b" true, .reorder "c" (.before "a")]
  have hopen : onHost .field [] { field := "(a, b):1.5" } = .ok s := rfl
  have htext : s'.staged.preview = "c, a:1.50, b:1.55" := by decide +kernel
  have hkeeps : ∀ e ∈ s'.selection.entries, e.Keeps := by decide +kernel
  have hcommit := commit_field (s := s') rfl {}
  rw [htext] at hcommit
  obtain ⟨r, hr, hiff⟩ := reopen_after_commit hopen false _ hcommit []
  exact ⟨s, _, r, _, hopen, hcommit, hr, hiff.mpr hkeeps⟩

/-- A name with a comma comes back as two names, and a weight that was lowered below zero as 1.0
and one more name. -/
theorem not_reopened :
    (∃ s s' r w'', onHost .field [] {} = .ok s ∧
      (s.run [.add "a,b"]).commit {} = (.ok "a,b", s', w'') ∧ onHost .field [] w'' = .ok r ∧
      s'.selection.names = ["a,b"] ∧ r.selection.names = ["a", "b"]) ∧
    (∃ s s' r w'', onHost .field [] {} = .ok s ∧
      (s.run (.add "a" :: List.replicate 21 (.adjust "a" false))).commit {}
        = (.ok "a:-0.05", s', w'') ∧
      onHost .field [] w'' = .ok r ∧
      s'.selection.names = ["a"] ∧ r.selection.names = ["a", "-0.05"]) := by
  let s : Session := { selection := Selection.ofText "", host? := some .field }
  have hopen : onHost .field [] {} = .ok s := rfl
  constructor
  · have htext : (s.run [.add "a,b"]).staged.preview = "a,b" := by decide +kernel
    have hcommit := commit_field (s := s.run [.add "a,b"]) rfl {}
    rw [htext] at hcommit
    exact ⟨s, _, _, _, hopen, hcommit, rfl, by decide +kernel, by decide +kernel⟩
  · let lowered : Session := s.run (.add "a" :: List.replicate 21 (.adjust "a" false))
    have htext : lowered.staged.preview = "a:-0.05" := by decide +kernel
    have hcommit := commit_field (s := lowered) rfl {}
    rw [htext] at hcommit
    exact ⟨s, _, _, _, hopen, hcommit, rfl, by decide +kernel, by decide +kernel⟩

end Session

end PromptTags
