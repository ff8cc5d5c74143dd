/-
Searching a catalog for a term.

A search compares lower-case forms, of the whole term and of whole names and aliases. A record that
has the term in its name or in an alias, letter by letter, is found by it if the lower-case form of
the term is the same within that text as alone, and only a capital sigma can make a difference
(`mem_search_of_sameSigmas`). So a term that settles its capital sigmas finds every record that
mentions it, and any other term misses one: a record with a letter more in front of the term in its
name, or with a letter more behind it (`settled_of_search`).
-/
import PromptTags.Catalog.Record
import PromptTags.Proofs.Text.CapitalSigma

set_option autoImplicit false

namespace PromptTags

open Text

/-- Whether a term occurs in the name of a record or in an alias, just as it is written. -/
def Record.Mentions (r : Record) (term : String) : Prop :=
  ∃ text ∈ r.name :: r.aliases, term.toList <:+: text.toList

/-- The empty term is no exception, since it occurs everywhere. -/
theorem Record.foundBy_iff {r : Record} {term : String} :
    r.foundBy term = true ↔
      ∃ text ∈ r.name :: r.aliases, lowerFrom [] term.toList <:+: lowerFrom [] text.toList := by
  simp only [foundBy, holds, Bool.or_eq_true, List.isEmpty_iff, List.any_eq_true, occursIn_iff]
  constructor
  · rintro (hempty | hfound)
    · refine ⟨r.name, List.mem_cons_self, ?_⟩
      rw [hempty]
      exact List.nil_infix
    · exact hfound
  · exact Or.inr

namespace Catalog

variable {c : Catalog} {r : Record} {term : String}

theorem mem_search_iff :
    r ∈ c.search term ↔ r ∈ c ∧
      ∃ text ∈ r.name :: r.aliases, lowerFrom [] term.toList <:+: lowerFrom [] text.toList := by
  rw [search, List.mem_filter, Record.foundBy_iff]

/-- A record is found where the term stands in it with the same sigmas as alone. -/
theorem mem_search_of_sameSigmas (hr : r ∈ c) {text : String} (htext : text ∈ r.name :: r.aliases)
    {before after : List Char} (hplace : text.toList = before ++ (term.toList ++ after))
    (hsame : SameSigmas term.toList before.reverse after [] []) : r ∈ c.search term := by
  refine mem_search_iff.mpr ⟨hr, text, htext, ?_⟩
  rw [hplace]
  exact lowerFrom_infix hsame

theorem mem_search_of_settled (h : Settled term.toList) (hr : r ∈ c) (hterm : r.Mentions term) :
    r ∈ c.search term := by
  obtain ⟨text, htext, before, after, hplace⟩ := hterm
  rw [List.append_assoc] at hplace
  exact mem_search_of_sameSigmas hr htext hplace.symm (sameSigmas_of_settled h _ _)

/-- A term that finds every record that mentions it is found in all texts that it stands in. -/
theorem settled_of_search
    (h : ∀ (c : Catalog) (r : Record), r ∈ c → r.Mentions term → r ∈ c.search term) :
    Settled term.toList := by
  rw [settled_iff]
  intro before after
  let r : Record := { name := String.ofList (before ++ (term.toList ++ after)) }
  have hname : r.name.toList = before ++ (term.toList ++ after) := String.toList_ofList
  have hmentions : r.Mentions term := by
    refine ⟨r.name, List.mem_cons_self, before, after, ?_⟩
    rw [hname, List.append_assoc]
  obtain ⟨-, text, htext, hfound⟩ := mem_search_iff.mp (h [r] r List.mem_cons_self hmentions)
  obtain rfl := List.mem_singleton.mp htext
  rw [hname] at hfound
  exact hfound

/-- **What a search misses.** A record in which the term stands just as it is written is found if the
capital sigmas of the term end words there just where they do in the term alone. The terms that find
every record that mentions them are those that settle their capital sigmas, and among them are all
terms without one. -/
theorem search_misses_only_sigmas (term : String) :
    (∀ (c : Catalog) (r : Record), r ∈ c → ∀ text ∈ r.name :: r.aliases, ∀ before after,
      text.toList = before ++ (term.toList ++ after) →
      SameSigmas term.toList before.reverse after [] [] → r ∈ c.search term) ∧
    ((∀ (c : Catalog) (r : Record), r ∈ c → r.Mentions term → r ∈ c.search term) ↔
      Settled term.toList) ∧
    ('Σ' ∉ term.toList → Settled term.toList) := by
  refine ⟨?_, ⟨settled_of_search, fun h c r => mem_search_of_settled h⟩, settled_of_not_mem⟩
  intro c r hr text htext before after hplace hsame
  exact mem_search_of_sameSigmas hr htext hplace hsame

/-- A word that ends with a capital sigma is found where it is a word of an alias, too. -/
theorem search_misses_only_sigmas_word :
    let r : Record := { name := "Sun and sea", aliases := ["sun_sea", "ΗΛΙΟΣ ΚΑΙ ΘΑΛΑΣΣΑ"] }
    SameSigmas "ΗΛΙΟΣ".toList [] " ΚΑΙ ΘΑΛΑΣΣΑ".toList [] [] ∧
      r ∈ search [{ name := "Smile" }, r] "ΗΛΙΟΣ" := by
  intro r
  have hsame : SameSigmas "ΗΛΙΟΣ".toList [] " ΚΑΙ ΘΑΛΑΣΣΑ".toList [] [] :=
    lowerBetween_eq_iff.mp (by decide +kernel)
  refine ⟨hsame, ?_⟩
  exact (search_misses_only_sigmas "ΗΛΙΟΣ").1 _ r (by simp) "ΗΛΙΟΣ ΚΑΙ ΘΑΛΑΣΣΑ" (by simp [r]) []
    " ΚΑΙ ΘΑΛΑΣΣΑ".toList rfl hsame

/-- The last letter of a name is not found in it: alone it is `σ` in lower case, and there `ς`. -/
theorem mentioned_record_not_found :
    ({ name := "ΟΔΟΣ" } : Record).Mentions "Σ" ∧
      ({ name := "ΟΔΟΣ" } : Record) ∉ search [{ name := "ΟΔΟΣ" }] "Σ" := by
  constructor
  · refine ⟨"ΟΔΟΣ", List.mem_cons_self, ?_⟩
    decide +kernel
  · decide +kernel

end Catalog

end PromptTags
