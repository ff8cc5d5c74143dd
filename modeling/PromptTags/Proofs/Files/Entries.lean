/-
Directories hold every name once.

A directory finds what it holds by name, so an entry behind another one of the same name could never
be met. There is none: where every name stands once in each directory (`FileNode.Distinct`), it
still does after anything that is done to the disk. A node that is put in its place comes under a
name that is new or takes the place of the entry with its name (`nodup_setEntry`), and what is taken
away leaves the other names as they are.
-/
import Mathlib.Tactic.SplitIfs
import PromptTags.Files.Disk
import PromptTags.Proofs.Keyed
import PromptTags.Proofs.Results

set_option autoImplicit false

namespace PromptTags

/-! ## 1. What is found -/

namespace FileNode

/-- What passes from a directory to its entries passes to whatever names lead to. -/
theorem of_at? {P : FileNode → Prop} (hstep : ∀ es, P (directory es) → ∀ e ∈ es, P e.2)
    {n found : FileNode} {names : List String} (h : P n) (hat : n.at? names = some found) :
    P found := by
  induction names generalizing n with
  | nil => exact Option.some.inj hat ▸ h
  | cons name names ih =>
    rw [at?] at hat
    obtain ⟨c, hc, hfound⟩ := Option.bind_eq_some_iff.mp hat
    cases n with
    | file content => cases hc
    | directory es => exact ih (hstep es h (name, c) (Keyed.mem_of_lookup hc)) hfound

end FileNode

/-- What passes from directories to their entries, and holds of the root, holds of whatever a path
leads to. -/
theorem Disk.of_find {P : FileNode → Prop}
    (hstep : ∀ es, P (.directory es) → ∀ e ∈ es, P e.2) {d : Disk} (h : P d.root) {path : String}
    {n : FileNode} (hfind : d.find path = .ok n) : P n := by
  obtain ⟨position, -, hat⟩ := Except.bind_eq_ok_iff.mp hfind
  split at hat
  · next found hfound => exact Except.ok.inj hat ▸ FileNode.of_at? hstep h hfound
  · cases hat

/-! ## 2. Names in a directory -/

namespace FileNode

/-- In this node and below it, no directory holds a name twice. -/
inductive Distinct : FileNode → Prop where
  | file (content : ByteArray) : Distinct (.file content)
  | directory {es : List (String × FileNode)} :
      (es.map Prod.fst).Nodup → (∀ e ∈ es, Distinct e.2) → Distinct (.directory es)

theorem distinct_entries {es : List (String × FileNode)} (h : Distinct (.directory es)) :
    (es.map Prod.fst).Nodup ∧ ∀ e ∈ es, e.2.Distinct := by
  cases h with
  | directory hnames hbelow => exact ⟨hnames, hbelow⟩

/-! ## 3. Changes -/

theorem mem_setEntry {name : String} {node : FileNode} {es : List (String × FileNode)}
    {e : String × FileNode} (h : e ∈ setEntry name node es) : e = (name, node) ∨ e ∈ es := by
  induction es with
  | nil => exact Or.inl (List.mem_singleton.mp h)
  | cons first rest ih =>
    rw [setEntry] at h
    split_ifs at h
    · exact (List.mem_cons.mp h).imp_right (List.mem_cons_of_mem _)
    · rcases List.mem_cons.mp h with rfl | h
      · exact Or.inr List.mem_cons_self
      · exact (ih h).imp_right (List.mem_cons_of_mem _)

theorem nodup_setEntry {name : String} {node : FileNode} {es : List (String × FileNode)}
    (h : (es.map Prod.fst).Nodup) : ((setEntry name node es).map Prod.fst).Nodup := by
  induction es with
  | nil => exact List.nodup_singleton name
  | cons first rest ih =>
    obtain ⟨hfirst, hrest⟩ := List.nodup_cons.mp h
    rw [setEntry]
    split_ifs with hname
    · subst hname
      exact h
    · refine List.nodup_cons.mpr ⟨fun hmem => ?_, ih hrest⟩
      obtain ⟨e, he, hkey⟩ := List.mem_map.mp hmem
      rcases mem_setEntry he with rfl | he
      · exact hname hkey.symm
      · exact hfirst (hkey ▸ List.mem_map_of_mem he)

theorem distinct_put {new n : FileNode} (hnew : new.Distinct) (h : n.Distinct)
    (names : List String) : (new.put names n).Distinct := by
  induction names generalizing n with
  | nil => exact hnew
  | cons name names ih =>
    cases n with
    | file content => exact h
    | directory es =>
      obtain ⟨hnames, hbelow⟩ := distinct_entries h
      have hold : ((es.lookup name).getD (directory [])).Distinct := by
        cases hlookup : es.lookup name with
        | none => exact .directory List.nodup_nil fun _ he => absurd he List.not_mem_nil
        | some c => exact hbelow (name, c) (Keyed.mem_of_lookup hlookup)
      rw [put]
      refine .directory (nodup_setEntry hnames) fun e he => ?_
      rcases mem_setEntry he with rfl | he
      · exact ih hold
      · exact hbelow e he

theorem distinct_erase {n : FileNode} (h : n.Distinct) (names : List String) :
    (n.erase names).Distinct := by
  induction names generalizing n with
  | nil => exact h
  | cons name names ih =>
    cases n with
    | file content => exact h
    | directory es =>
      obtain ⟨hnames, hbelow⟩ := distinct_entries h
      cases names with
      | nil =>
        refine .directory (hnames.sublist (List.filter_sublist.map Prod.fst)) fun e he => ?_
        exact hbelow e (List.mem_of_mem_filter he)
      | cons next names =>
        rw [erase]
        · refine .directory ?_ (List.forall_mem_map.mpr fun e he => ?_)
          · have hkept : (Prod.fst ∘ fun e : String × FileNode =>
                if e.1 = name then (name, erase (next :: names) e.2) else e) = Prod.fst := by
              funext e
              simp only [Function.comp_apply]
              split_ifs with hname
              · exact hname.symm
              · rfl
            rw [List.map_map, hkept]
            exact hnames
          · split_ifs
            · exact ih (hbelow e he)
            · exact hbelow e he
        · exact fun hnil => List.cons_ne_nil next names hnil

end FileNode

/-! ## 4. Disks -/

namespace Disk

variable {d : Disk}

theorem distinct_of_find {path : String} {n : FileNode} (h : d.root.Distinct)
    (hfind : d.find path = .ok n) : n.Distinct :=
  of_find (fun _ hes => (FileNode.distinct_entries hes).2) h hfind

/-- **No change gives a directory two entries of one name**: neither putting something in its place
nor making a directory, neither taking something away nor writing a file. -/
theorem distinct_changes (h : d.root.Distinct) (path : String) :
    (∀ node : FileNode, node.Distinct → (d.place path node).root.Distinct) ∧
    (d.makeDirectory path).root.Distinct ∧ (d.erase path).root.Distinct ∧
    ∀ text d', d.writeText path text = .ok d' → d'.root.Distinct := by
  have hplace : ∀ node : FileNode, node.Distinct → (d.place path node).root.Distinct :=
    fun node hnode => FileNode.distinct_put hnode h _
  refine ⟨hplace, ?_, FileNode.distinct_erase h _, fun text d' hwrite => ?_⟩
  · rw [makeDirectory]
    split_ifs
    · exact h
    · exact hplace _ (.directory List.nodup_nil fun _ he => absurd he List.not_mem_nil)
  · obtain ⟨position, -, rfl⟩ := Except.map_eq_ok_iff.mp hwrite
    exact FileNode.distinct_put (.file _) h position

end Disk

end PromptTags
