/-
Settings that are written to a file and loaded from it.

The written form has a line for each header and for each setting, and every line is read for itself
(`readStatements_line`). A path is text in one of the forms that `readText_textChars` is about, a
number of places fits in 63 bits, and what the lines put together is the table of the settings. So
the settings come back whether they are valid or not (`ofToml?_toToml`), and the check comes after
the reading: valid settings are loaded, and for others there is the fault that the check finds
(`loadFrom_of_written`).
-/
import PromptTags.Proofs.Files.Rewriting
import PromptTags.Proofs.Settings.Loading
import PromptTags.Proofs.Toml.Lines

set_option autoImplicit false

namespace PromptTags.Settings

open Toml

/-! ## 1. The lines of the written form -/

theorem readStatement_catalog (r : List Char) :
    readStatement ("[catalog]\n".toList ++ r) = some (.header ["catalog"], r) := by
  show readStatement (['[', 'c', 'a', 't', 'a', 'l', 'o', 'g', ']', '\n'] ++ r) = _
  rfl

theorem readStatement_editor (r : List Char) :
    readStatement ("[editor]\n".toList ++ r) = some (.header ["editor"], r) := by
  show readStatement (['[', 'e', 'd', 'i', 't', 'o', 'r', ']', '\n'] ++ r) = _
  rfl

theorem readStatement_dataDir (dir : String) (r : List Char) :
    readStatement ("data_dir = ".toList ++ (textChars dir ++ '\n' :: r)) =
      some (.pair ["data_dir"] (.text dir), r) := by
  have hvalue := fun fuel room => @readValue_textChars fuel room dir r
  obtain ⟨q, cs, hcs, hq⟩ := exists_textChars_eq_cons dir
  rw [hcs] at hvalue ⊢
  have hwhite : isWhite q = false := by rcases hq with rfl | rfl <;> rfl
  exact readStatement_pair (by simp) (by rfl) rfl hwhite hvalue

theorem readStatement_sortOnCommit (b : Bool) (r : List Char) :
    readStatement ("sort_on_commit = ".toList ++ ((toString b).toList ++ '\n' :: r)) =
      some (.pair ["sort_on_commit"] (.bool b), r) := by
  cases b with
  | false => exact readStatement_pair (by simp) (by rfl) rfl rfl (fun _ _ => rfl)
  | true => exact readStatement_pair (by simp) (by rfl) rfl rfl (fun _ _ => rfl)

theorem readStatement_labelPrecision {n : Nat} (h : n ≤ greatestInteger) (r : List Char) :
    readStatement ("label_precision = ".toList ++ (Decimal.digits n ++ '\n' :: r)) =
      some (.pair ["label_precision"] (.integer n), r) := by
  have hvalue := fun fuel room => @readValue_digits fuel n h room r
  obtain ⟨d, ds, hds, hd⟩ := Decimal.exists_digits_eq_cons n
  rw [hds] at hvalue ⊢
  have hwhite : isWhite d = false := by
    simp [isWhite, Decimal.ne_of_isDigit hd (by decide : (' ').isDigit = false),
      Decimal.ne_of_isDigit hd (by decide : ('\t').isDigit = false)]
  exact readStatement_pair (by simp) (by rfl) rfl hwhite hvalue

/-! ## 2. The whole written form -/

/-- The headers and pairs that settings are written as. -/
def statements (s : Settings) : List Statement :=
  .header ["catalog"] :: ((s.dataDir?.map fun dir => .pair ["data_dir"] (.text dir)).toList ++
    [.header ["editor"], .pair ["sort_on_commit"] (.bool s.sortOnCommit),
      .pair ["label_precision"] (.integer s.labelPlaces)])

/-- What the headers and pairs put together holds the settings. -/
theorem bind_tableOf?_statements (s : Settings) :
    (tableOf? s.statements).bind ofFields? = some s := by
  obtain ⟨dir?, sort, places⟩ := s
  cases dir? with
  | none => rfl
  | some dir => rfl

/-- The line of the directory, if there is one. -/
def dataDirLine (s : Settings) : List Char :=
  match s.dataDir? with
  | some dir => "data_dir = ".toList ++ (textChars dir ++ ['\n'])
  | none => []

theorem toList_toToml (s : Settings) :
    s.toToml.toList = "[catalog]\n".toList ++ (s.dataDirLine ++ ('\n' :: ("[editor]\n".toList ++
      ("sort_on_commit = ".toList ++ ((toString s.sortOnCommit).toList ++ '\n' ::
        ("label_precision = ".toList ++ (Decimal.digits s.labelPlaces ++ ['\n']))))))) := by
  cases hdir : s.dataDir? <;> simp [toToml, dataDirLine, hdir, Decimal.digits]

theorem readStatements_toToml {s : Settings} (h : s.labelPlaces ≤ greatestInteger) (fuel : Nat) :
    readStatements (fuel + 7) s.toToml.toList = some s.statements := by
  have hlast : ∀ fuel, readStatements (fuel + 3) ("sort_on_commit = ".toList ++
      ((toString s.sortOnCommit).toList ++ '\n' ::
        ("label_precision = ".toList ++ (Decimal.digits s.labelPlaces ++ ['\n'])))) =
      some [.pair ["sort_on_commit"] (.bool s.sortOnCommit),
        .pair ["label_precision"] (.integer s.labelPlaces)] := by
    intro fuel
    rw [readStatements_line (c := 's') (by simp) (Or.inr (by decide))
        (readStatement_sortOnCommit s.sortOnCommit _),
      readStatements_line (c := 'l') (by simp) (Or.inr (by decide))
        (readStatement_labelPrecision h [])]
    rfl
  have heditor : ∀ fuel, readStatements (fuel + 5) ('\n' :: ("[editor]\n".toList ++
      ("sort_on_commit = ".toList ++ ((toString s.sortOnCommit).toList ++ '\n' ::
        ("label_precision = ".toList ++ (Decimal.digits s.labelPlaces ++ ['\n'])))))) =
      some [.header ["editor"], .pair ["sort_on_commit"] (.bool s.sortOnCommit),
        .pair ["label_precision"] (.integer s.labelPlaces)] := by
    intro fuel
    rw [readStatements_empty_line,
      readStatements_line (c := '[') (by simp) (Or.inl rfl) (readStatement_editor _), hlast,
      Option.map_some]
  rw [toList_toToml,
    readStatements_line (c := '[') (by simp) (Or.inl rfl) (readStatement_catalog _)]
  unfold dataDirLine statements
  cases hdir : s.dataDir? with
  | none =>
    rw [List.nil_append, heditor]
    rfl
  | some dir =>
    simp only [List.append_assoc, List.cons_append, List.nil_append]
    rw [readStatements_line (c := 'd') (by simp) (Or.inr (by decide))
      (readStatement_dataDir dir _), heditor]
    rfl

/-- **Settings are read from their written form**, whether they pass the check or not. -/
theorem ofToml?_toToml {s : Settings} (h : s.labelPlaces ≤ greatestInteger) :
    ofToml? s.toToml = some s := by
  -- There are more characters than lines, and the first one is no byte order mark.
  have hlength : 6 ≤ s.toToml.toList.length := by
    rw [toList_toToml, List.length_append]
    exact Nat.le_add_right_of_le (by simp)
  obtain ⟨fuel, hfuel⟩ := Nat.exists_eq_add_of_le' hlength
  have hmark : ∀ r, s.toToml.toList ≠ '\ufeff' :: r := by
    intro r hr
    have hhead : s.toToml.toList.head? = some '[' := by
      rw [toList_toToml]
      simp
    rw [hr] at hhead
    cases hhead
  have hread : Toml.read? s.toToml = (readStatements (fuel + 7) s.toToml.toList).bind tableOf? := by
    unfold Toml.read?
    split
    · next r hr => exact absurd hr (hmark r)
    · simp only [hfuel]
  rw [ofToml?, hread, readStatements_toToml h, Option.bind_some, bind_tableOf?_statements]

/-! ## 3. Written to a file -/

/-- **Settings that are written to a file are loaded from it.** This holds of every path as the
directory, with quotes, backslashes or line breaks in it too. Settings that pass the check come
back as they are, and for others there is the fault that the check finds. -/
theorem loadFrom_of_written {d d' : Disk} {path : String} {s : Settings}
    (hplaces : s.labelPlaces < 2 ^ 63) (hwrite : d.writeText path s.toToml = .ok d') :
    (s.check = .ok () → loadFrom d' path = .ok s) ∧
    ∀ f, s.check = .error f →
      loadFrom d' path = .error f ∧ f.message = "Configuration validation failed: " ++ f.reason := by
  have hread := Disk.readText_writeText hwrite
  have hthere : d'.has path = true := by
    by_contra hnot
    obtain ⟨f, hf⟩ := readText_of_not_has (Bool.eq_false_of_not_eq_true hnot)
    rw [hread] at hf
    cases hf
  have hload : loadFrom d' path = s.check.map fun _ => s := by
    rw [loadFrom, hthere, hread]
    simp only [ofToml?_toToml (Nat.le_of_lt_succ hplaces), Bool.not_true, Bool.false_eq_true,
      if_false]
  rw [hload]
  refine ⟨fun hcheck => by rw [hcheck]; rfl, fun f hcheck => ⟨by rw [hcheck]; rfl, ?_⟩⟩
  unfold check at hcheck
  split_ifs at hcheck <;> · obtain rfl := Except.error.inj hcheck; rfl

/-- A path with quotes, a backslash and a line break. -/
theorem loadFrom_of_written_odd_path :
    let s : Settings := { dataDir? := some "it's \"here\"\\\n", labelPlaces := 6 }
    let d : Disk := {}
    ∃ d', d.writeText "/config.toml" s.toToml = .ok d' ∧ loadFrom d' "/config.toml" = .ok s := by
  intro s d
  have htarget : d.locateTarget "/config.toml" = .ok ["config.toml"] := by decide +kernel
  have hwrite : d.writeText "/config.toml" s.toToml =
      .ok { root := .directory [("config.toml", .ofText s.toToml)] } := by
    rw [Disk.writeText, htarget]
    rfl
  exact ⟨_, hwrite, (loadFrom_of_written (by decide) hwrite).1 (by decide)⟩

end PromptTags.Settings
