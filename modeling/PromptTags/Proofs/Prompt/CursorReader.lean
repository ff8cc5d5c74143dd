/-
Reading at a cursor ends.

The reader is written here once more, over a cursor in the bytes of the text, with the count of open
groups kept at the cursor. Nothing in it shows that its loops go on: a value may pass over nothing,
or only over blanks, and then the loop around it looks whether the cursor is still where the turn
began. Loops that do not end in time, and groups for which there is no room on the stack, are given
up like cuts that fail.

The key lemma is on one turn (`takeTurn_eq`). Where a value passes over nothing at all, a comma or a
closing parenthesis is next (`valueEnds_plain`), which the way to the next value passes over. So each
turn goes on by a character, and the loops end, by induction on the turns that are left. Around that
stands an induction on the room for more groups. What is read on the way agrees with the scan, and
so does the reader that runs on lists of characters; so both read the same.
-/
import PromptTags.Proofs.Prompt.Cursor
import PromptTags.Proofs.Prompt.ReaderScan

set_option autoImplicit false

namespace PromptTags.Prompt

open Text (skipBlanks skipBlanks_cons_of_not_blank)

namespace Cursor

/-! ## 1. The reader -/

/-- To the next value, in a turn that began at this byte: blanks and a comma are passed over, or a
character where all of the turn has passed over nothing. -/
def passOn (text : String) (start : Nat) (c : Cursor) : Option Cursor := do
  let c ← passBlanks text c
  let (comma, c) ← eat text ',' c
  if comma = false ∧ c.pos = start then bump text c else some c

/-- Counts one more group; with it, so many are being read. -/
def enter (groups : Nat) (c : Cursor) : Cursor :=
  { c with depth := c.depth + 1 }.note (.group groups (c.depth + 1))

def leave (c : Cursor) : Cursor := { c with depth := c.depth - 1 }

section Parts

-- How a value and how a group is read, inside of so many groups.
variable (text : String) (value : Cursor → Option (Option Token × Cursor))
  (group : Cursor → Option (Token × Cursor)) (groups : Nat)

/-- One turn of a loop over values. -/
def takeTurn (c : Cursor) : Option (List Token × Cursor) := do
  let (value?, behind) ← value c
  let next ← passOn text c.pos (behind.note (.value groups c.depth behind.depth))
  some (spliced value?, next.note (.turn c.pos next.pos))

/-- The members of a group, behind those that were read before. -/
def takeMembers : (turns : Nat) → List Token → Cursor → Option (List Token × Cursor)
  | 0, _, _ => none
  | turns + 1, members, c => do
    let c ← passBlanks text c
    let next ← peek text c
    if next = none ∨ next = some ')' then some (members, c)
    else
      let (ts, c) ← takeTurn text value groups c
      takeMembers turns (members ++ ts) c

/-- A group, with values that are read inside of it. -/
def takeGroup (c : Cursor) : Option (Token × Cursor) := do
  let c ← bump text c
  let (members, c) ← takeMembers text value groups (enoughTurns text) [] (c.enter groups)
  let (closed, c) ← eat text ')' c.leave
  if closed then
    let (weight?, c) ← takeWeight text c
    some (groupOf members weight?, c)
  else some (groupOf members none, c)

/-- A value, or none if no value starts here. -/
def takeStart (c : Cursor) : Option (Option Token × Cursor) := do
  let c ← passBlanks text c
  match ← peek text c with
  | none => some (none, c)
  | some a =>
    if a ≠ '(' then takePlain text c
    else if c.depth < maxDepth then
      let (group, c) ← group c
      some (some group, c)
    else
      let c ← bump text c
      takePlain text c

end Parts

/-- A value inside of so many groups, with room on the stack for so many more. -/
def takeValue (text : String) :
    (room groups : Nat) → Cursor → Option (Option Token × Cursor)
  | 0, _ => takeStart text fun _ => none
  | room + 1, groups =>
    takeStart text (takeGroup text (takeValue text room (groups + 1)) (groups + 1))

/-- The tokens of a text, behind those that were read before. -/
def takeTokens (text : String) : (turns : Nat) → List Token → Cursor → Option (List Token × Cursor)
  | 0, _, _ => none
  | turns + 1, tokens, c => do
    if text.utf8ByteSize ≤ c.pos then some (tokens, c)
    else
      let (ts, c) ← takeTurn text (takeValue text maxDepth 0) 0 c
      takeTokens text turns (tokens ++ ts) c

/-- The tokens of a text, and the cursor behind it. -/
def takeText (text : String) : Option (List Token × Cursor) :=
  takeTokens text (enoughTurns text) [] {}

/-! ## 2. What is read -/

variable {text : String} {c c' c₁ : Cursor} {cs rest rest' : List Char} {ts ts' : List Token}
  {groups : Nat}

/-- What was read inside of so many groups agrees with the scan. -/
def AgreesIn (groups : Nat) (cs : List Char) (ts : List Token) (rest : List Char) : Prop :=
  ∀ f : Frames, f.depth = groups → Agrees f cs ts rest

theorem AgreesIn.nothing (h : ∀ f : Frames, f.depth = groups → scan f cs = scan f rest) :
    AgreesIn groups cs [] rest :=
  fun f hf => Agrees.nothing (h f hf)

theorem AgreesIn.append (h : AgreesIn groups cs ts rest) (h' : AgreesIn groups rest ts' rest') :
    AgreesIn groups cs (ts ++ ts') rest' := by
  intro f hf
  obtain ⟨us, rfl, hscan⟩ := h f hf
  obtain ⟨vs, rfl, hscan'⟩ := h' (f.add us) hf
  refine ⟨us ++ vs, List.map_append.symm, ?_⟩
  rw [hscan, hscan', Frames.add_add]

theorem AgreesIn.behind_blanks (h : AgreesIn groups (skipBlanks cs) ts rest) :
    AgreesIn groups cs ts rest := by
  intro f hf
  obtain ⟨us, hus, hscan⟩ := h f hf
  exact ⟨us, hus, by rw [← scan_skipBlanks, hscan]⟩

theorem Advances.note {e : Event} (h : Advances text c c' cs rest) (he : e.Sound text) :
    Advances text c (c'.note e) cs rest :=
  ⟨stands_note h.stands he, h.suffix, h.depth_eq⟩

/-! ## 3. One turn -/

theorem pos_eq_iff (h : Stands text c cs) (h' : Advances text c c' cs rest) :
    c'.pos = c.pos ↔ rest = cs := by
  obtain ⟨passed, rfl⟩ := h'.suffix
  obtain ⟨front, -, hpos, hpos'⟩ := exists_passed h h'.stands
  rw [hpos, hpos', String.utf8ByteSize_append, Nat.add_eq_left, String.utf8ByteSize_eq_zero_iff,
    String.ofList_eq_empty_iff, List.self_eq_append_left]

theorem turn_sound (h : Stands text c cs) (h' : Advances text c c' cs rest)
    (hlt : rest.length < cs.length) : Event.Sound text (.turn c.pos c'.pos) := by
  obtain ⟨passed, rfl⟩ := h'.suffix
  obtain ⟨front, htext, hpos, hpos'⟩ := exists_passed h h'.stands
  refine ⟨front, String.ofList passed, String.ofList rest, htext, ?_, hpos, hpos'⟩
  rw [Ne, String.ofList_eq_empty_iff]
  rintro rfl
  exact Nat.lt_irrefl _ hlt

/-- **The way to the next value goes on by at least one character**, if the value did, or if a comma
or a closing parenthesis is next. What is passed over makes no difference to the scan, if such a
parenthesis closes nothing. -/
theorem passOn_eq (h : Stands text c cs) (hvalue : Advances text c c₁ cs rest) (hne : cs ≠ [])
    (hstall : rest = cs → cs.head? = some ',' ∨ cs.head? = some ')') :
    ∃ c' rest', passOn text c.pos c₁ = some c' ∧ Advances text c c' cs rest' ∧
      rest'.length < cs.length ∧
      ∀ f : Frames, (cs.head? = some ')' → f.depth = 0) → scan f rest = scan f rest' := by
  obtain ⟨c₂, hblanks, hskip⟩ := passBlanks_eq hvalue.stands
  have htwo := hvalue.trans hskip
  have hle := htwo.suffix.length_le
  rw [passOn, hblanks, Option.bind_eq_bind, Option.bind_some]
  by_cases hcomma : (skipBlanks rest).head? = some ','
  · obtain ⟨r, hr⟩ := List.head?_eq_some_iff.mp hcomma
    rw [hr] at htwo hle
    refine ⟨_, r, ?_, htwo.trans (advances_moveTo htwo.stands), hle, fun f _ => ?_⟩
    · rw [eat_eq htwo.stands]
      rfl
    · rw [← scan_skipBlanks, hr, scan_comma]
  · rw [eat_of_ne htwo.stands hcomma, Option.bind_eq_bind, Option.bind_some]
    by_cases hsame : skipBlanks rest = cs
    · -- Nothing was passed over, and no comma is next, so it is a parenthesis.
      have hrest : rest = cs := by
        refine hvalue.suffix.eq_of_length (Nat.le_antisymm hvalue.suffix.length_le ?_)
        exact hsame ▸ hskip.suffix.length_le
      have hclose := (hstall hrest).resolve_left (hsame ▸ hcomma)
      obtain ⟨r, rfl⟩ := List.head?_eq_some_iff.mp hclose
      rw [hsame] at htwo
      refine ⟨_, r, ?_, htwo.trans (advances_moveTo htwo.stands), Nat.lt_succ_self _,
        fun f hf => ?_⟩
      · show (if false = false ∧ c₂.pos = c.pos then bump text c₂ else some c₂) = _
        rw [if_pos ⟨rfl, (pos_eq_iff h htwo).mpr rfl⟩, bump_eq htwo.stands]
      · rw [hrest, scan_stray_close (hf hclose)]
    · refine ⟨c₂, skipBlanks rest, ?_, htwo, ?_, fun f _ => (scan_skipBlanks f rest).symm⟩
      · show (if false = false ∧ c₂.pos = c.pos then bump text c₂ else some c₂) = _
        rw [if_neg fun hstay => hsame ((pos_eq_iff h htwo).mp hstay.2)]
      · exact lt_of_le_of_ne hle fun heq => hsame (htwo.suffix.eq_of_length heq)

/-- What reading a value, inside of so many groups, should give: it ends and agrees with the scan,
and if it passes over nothing, the reason is seen in what comes next. -/
def ValueEnds (text : String) (groups : Nat) (result : Option (Option Token × Cursor)) (c : Cursor)
    (cs : List Char) : Prop :=
  ∃ value? c' rest, result = some (value?, c') ∧ Advances text c c' cs rest ∧
    AgreesIn groups cs (spliced value?) rest ∧
    (rest = cs → cs = [] ∨ cs.head? = some ',' ∨ cs.head? = some ')')

/-- This way of reading values, inside of so many groups, always ends so. -/
def ValuesEnd (text : String) (groups : Nat) (value : Cursor → Option (Option Token × Cursor)) :
    Prop :=
  ∀ (c : Cursor) (cs : List Char), Stands text c cs → c.depth = groups →
    ValueEnds text groups (value c) c cs

section Loops

variable {value : Cursor → Option (Option Token × Cursor)} (hvalues : ValuesEnd text groups value)
  (hgroups : groups ≤ maxDepth)
include hvalues hgroups

/-- **One turn of a loop.** It ends, it goes on by at least one character, and as many groups are
open after it. In a group it does not begin at a closing parenthesis. -/
theorem takeTurn_eq (h : Stands text c cs) (hdepth : c.depth = groups) (hne : cs ≠ [])
    (hclose : cs.head? = some ')' → groups = 0) :
    ∃ ts c' rest, takeTurn text value groups c = some (ts, c') ∧ Advances text c c' cs rest ∧
      rest.length < cs.length ∧ AgreesIn groups cs ts rest := by
  obtain ⟨value?, c₁, rest, hvalue, hone, hagrees, hstall⟩ := hvalues c cs h hdepth
  have hnoted : Event.Sound text (.value groups c.depth c₁.depth) :=
    ⟨hdepth, hgroups, hone.depth_eq⟩
  obtain ⟨c₂, rest', hpass, htwo, hlt, hscan⟩ :=
    passOn_eq h (hone.note hnoted) hne fun heq => (hstall heq).resolve_left hne
  refine ⟨spliced value?, _, rest', ?_, htwo.note (turn_sound h htwo hlt), hlt, ?_⟩
  · simp only [takeTurn, hvalue, hpass, Option.bind_eq_bind, Option.bind_some]
  · have hnext : AgreesIn groups rest [] rest' :=
      .nothing fun f hf => hscan f fun hhead => hf.trans (hclose hhead)
    have hall := hagrees.append hnext
    rwa [List.append_nil] at hall

/-- The members of a group, up to where it ends. -/
theorem takeMembers_eq (h : Stands text c cs) (hdepth : c.depth = groups) {turns : Nat}
    (hturns : cs.length < turns) (members : List Token) :
    ∃ ts c' rest, takeMembers text value groups turns members c = some (members ++ ts, c') ∧
      Advances text c c' cs rest ∧ (rest = [] ∨ rest.head? = some ')') ∧
      AgreesIn groups cs ts rest := by
  induction turns generalizing c cs members with
  | zero => exact absurd hturns (Nat.not_lt_zero _)
  | succ turns ih =>
    obtain ⟨c₁, hblanks, hfirst⟩ := passBlanks_eq h
    rw [takeMembers, hblanks, Option.bind_eq_bind, Option.bind_some, peek_eq hfirst.stands,
      Option.bind_eq_bind, Option.bind_some]
    by_cases hend : (skipBlanks cs).head? = none ∨ (skipBlanks cs).head? = some ')'
    · refine ⟨[], c₁, skipBlanks cs, ?_, hfirst, hend.imp_left List.head?_eq_none_iff.mp, ?_⟩
      · rw [if_pos hend, List.append_nil]
      · exact .nothing fun f _ => (scan_skipBlanks f cs).symm
    · obtain ⟨hsome, hopen⟩ := not_or.mp hend
      have hdepth₁ := hfirst.depth_eq.trans hdepth
      obtain ⟨ts, c₂, rest, hturn, htwo, hlt, hagrees⟩ := takeTurn_eq hvalues hgroups hfirst.stands
        hdepth₁ (mt List.head?_eq_none_iff.mpr hsome) fun hclose => absurd hclose hopen
      have hless : rest.length < turns := by
        have hle := hfirst.suffix.length_le
        omega
      obtain ⟨us, c', rest', hmore, hthree, hdone, hagrees'⟩ :=
        ih htwo.stands (htwo.depth_eq.trans hdepth₁) hless (members ++ ts)
      refine ⟨ts ++ us, c', rest', ?_, (hfirst.trans htwo).trans hthree, hdone, ?_⟩
      · rw [if_neg hend, hturn, Option.bind_eq_bind, Option.bind_some, ← List.append_assoc]
        exact hmore
      · exact (hagrees.append hagrees').behind_blanks

end Loops

/-! ## 4. Values -/

/-- A group whose opening parenthesis is next, if one more may be open. -/
theorem takeGroup_eq {value : Cursor → Option (Option Token × Cursor)}
    (hvalues : ValuesEnd text (groups + 1) value) (hgroups : groups < maxDepth)
    (h : Stands text c ('(' :: cs)) (hdepth : c.depth = groups) :
    ∃ group c' rest, takeGroup text value (groups + 1) c = some (group, c') ∧
      Advances text c c' ('(' :: cs) rest ∧ rest.length ≤ cs.length ∧
      AgreesIn groups ('(' :: cs) group.spliced rest := by
  have hopen := advances_moveTo h
  obtain ⟨c₁, hc₁⟩ : ∃ c₁, c.moveTo (c.pos + '('.utf8Size) = c₁ := ⟨_, rfl⟩
  rw [hc₁] at hopen
  have hdepth₁ : (c₁.enter (groups + 1)).depth = groups + 1 :=
    congrArg (· + 1) (hopen.depth_eq.trans hdepth)
  have hentered : Stands text (c₁.enter (groups + 1)) cs :=
    stands_note ⟨hopen.stands.splits, hopen.stands.sound⟩ ⟨hdepth₁, hgroups⟩
  obtain ⟨ts, c₂, rest, hmembers, hinner, hend, hagrees⟩ :=
    takeMembers_eq hvalues hgroups hentered hdepth₁ hentered.lt_enoughTurns []
  have hleft : Stands text c₂.leave rest := ⟨hinner.stands.splits, hinner.stands.sound⟩
  have hdepth₂ : c₂.leave.depth = c.depth := by
    rw [leave, hinner.depth_eq, hdepth₁, hdepth]
    rfl
  have hsuffix : rest <:+ '(' :: cs := hinner.suffix.trans (List.suffix_cons '(' cs)
  have hlevel : ∀ f : Frames, f.depth = groups →
      f.depth < maxDepth ∧ f.opened.depth = groups + 1 :=
    fun f hf => ⟨hf ▸ hgroups, hf ▸ Frames.depth_opened_of_lt (hf ▸ hgroups)⟩
  rcases hend with rfl | hclose
  · have hend : eat text ')' c₂.leave = some (false, c₂.leave) :=
      eat_of_ne hleft (Option.some_ne_none _).symm
    refine ⟨groupOf ts none, c₂.leave, [], ?_, ⟨hleft, hsuffix, hdepth₂⟩, Nat.zero_le _, ?_⟩
    · simp only [takeGroup, bump_eq h, hc₁, hmembers, hend, Option.bind_eq_bind, Option.bind_some,
        List.nil_append, Bool.false_eq_true, if_false]
    · intro f hf
      obtain ⟨hlt, hopened⟩ := hlevel f hf
      exact (hagrees f.opened hopened).unclosed hlt
  · obtain ⟨r, rfl⟩ := List.head?_eq_some_iff.mp hclose
    have hshut := advances_moveTo hleft
    obtain ⟨c', hweight, hlast⟩ := takeWeight_eq hshut.stands
    have hall := hshut.trans hlast
    refine ⟨groupOf ts (readWeight r).value, c', (readWeight r).rest, ?_,
      ⟨hall.stands, hall.suffix.trans hsuffix, hall.depth_eq.trans hdepth₂⟩, ?_, ?_⟩
    · simp only [takeGroup, bump_eq h, hc₁, hmembers, eat_eq hleft, hweight, Option.bind_eq_bind,
        Option.bind_some, List.nil_append, if_true]
    · exact (hlast.suffix.trans ((List.suffix_cons ')' r).trans hinner.suffix)).length_le
    · intro f hf
      obtain ⟨hlt, hopened⟩ := hlevel f hf
      exact (hagrees f.opened hopened).closed hlt

/-- A tag's text, or the weight behind a colon, is at least one character. -/
theorem readPlain_length_lt {a : Char} (hblank : Text.isBlank a = false) (hopen : a ≠ '(')
    (hstop : ¬(a = ',' ∨ a = ')')) (cs : List Char) :
    (readPlain [] (a :: cs)).rest.length < (a :: cs).length := by
  obtain ⟨hcomma, hclose⟩ := not_or.mp hstop
  refine Nat.lt_succ_of_le ?_
  by_cases hcolon : a = ':'
  · subst hcolon
    have hweight := (readWeight_of_colon (skipBlanks_cons_of_not_blank hblank cs)).2
    show (readWeight (':' :: cs)).rest.length ≤ cs.length
    rw [hweight, List.length_drop]
    exact Nat.sub_le _ _
  · have hname : isDelimiter a = false := by
      simp [isDelimiter, hcomma, hopen, hclose, hcolon]
    have hdrop : (a :: cs).dropWhile (!isDelimiter ·) = cs.dropWhile (!isDelimiter ·) :=
      List.dropWhile_cons_of_pos (by rw [hname]; rfl)
    have hrest := (readWeight ((a :: cs).dropWhile (!isDelimiter ·))).rest_le
    rw [hdrop] at hrest
    show (readWeight ((a :: cs).dropWhile (!isDelimiter ·))).rest.length ≤ cs.length
    rw [hdrop]
    exact hrest.trans (List.dropWhile_suffix _).length_le

section Start

-- Behind blanks, the cursor stands in front of a character.
variable {a : Char} {r : List Char} {group : Cursor → Option (Token × Cursor)}
  (hcs : skipBlanks cs = a :: r) (hfirst : Advances text c c₁ cs (a :: r))
include hcs hfirst

/-- A value that takes a character. -/
theorem valueEnds_of_shorter {value? : Option Token} {result : Option (Option Token × Cursor)}
    (hresult : result = some (value?, c')) (h : Advances text c₁ c' (a :: r) rest)
    (hshort : rest.length ≤ r.length) (hagrees : AgreesIn groups (a :: r) (spliced value?) rest) :
    ValueEnds text groups result c cs := by
  refine ⟨value?, c', rest, hresult, hfirst.trans h, .behind_blanks (hcs ▸ hagrees), ?_⟩
  rintro rfl
  exact absurd (hfirst.suffix.length_le.trans hshort) (Nat.not_succ_le_self _)

variable (hblanks : passBlanks text c = some c₁)
include hblanks

theorem valueEnds_group {value : Cursor → Option (Option Token × Cursor)} (ha : a = '(')
    (hdepth : c.depth = groups) (hroom : groups < maxDepth)
    (hinner : ValuesEnd text (groups + 1) value) :
    ValueEnds text groups (takeStart text (takeGroup text value (groups + 1)) c) c cs := by
  subst ha
  have hmore : c₁.depth < maxDepth := by rwa [hfirst.depth_eq, hdepth]
  obtain ⟨group, c', rest, hgroup, hsecond, hshort, hagrees⟩ :=
    takeGroup_eq hinner hroom hfirst.stands (hfirst.depth_eq.trans hdepth)
  have hresult : takeStart text (takeGroup text value (groups + 1)) c = some (some group, c') := by
    simp only [takeStart, hblanks, peek_eq hfirst.stands, hgroup, Option.bind_eq_bind,
      Option.bind_some, List.head?_cons, ne_eq, not_true_eq_false, if_false, if_pos hmore]
  exact valueEnds_of_shorter hcs hfirst hresult hsecond hshort hagrees

/-- Where no more groups may be open, a parenthesis is passed over, and a tag is read behind it. -/
theorem valueEnds_full (ha : a = '(') (hdepth : c.depth = groups) (hfull : groups = maxDepth) :
    ValueEnds text groups (takeStart text group c) c cs := by
  subst ha
  have hnomore : ¬ c₁.depth < maxDepth := by
    rw [hfirst.depth_eq, hdepth, hfull]
    exact Nat.lt_irrefl _
  have hmove := advances_moveTo hfirst.stands
  obtain ⟨c', hplain, hsecond⟩ := takePlain_eq hmove.stands
  have hresult : takeStart text group c = some ((readPlain [] r).value, c') := by
    simp only [takeStart, hblanks, peek_eq hfirst.stands, bump_eq hfirst.stands, hplain,
      Option.bind_eq_bind, Option.bind_some, List.head?_cons, ne_eq, not_true_eq_false, if_false,
      if_neg hnomore]
  refine valueEnds_of_shorter hcs hfirst hresult (hmove.trans hsecond) hsecond.suffix.length_le
    fun f hf => ?_
  obtain ⟨us, hus, hscan⟩ := readPlain_agrees f (fun _ ha => absurd ha List.not_mem_nil) r
  refine ⟨us, hus, ?_⟩
  rw [scan_open, Frames.opened_of_full (hf.trans hfull)]
  exact hscan

/-- A tag, or a weight without one. Or no value starts here, and nothing is passed over. -/
theorem valueEnds_plain (ha : a ≠ '(') : ValueEnds text groups (takeStart text group c) c cs := by
  obtain ⟨c', hplain, hsecond⟩ := takePlain_eq hfirst.stands
  have hresult : takeStart text group c = some ((readPlain [] (a :: r)).value, c') := by
    simp only [takeStart, hblanks, peek_eq hfirst.stands, hplain, Option.bind_eq_bind,
      Option.bind_some, List.head?_cons, ne_eq, ha, not_false_eq_true, if_true]
  have hagrees : AgreesIn groups (a :: r) (spliced (readPlain [] (a :: r)).value)
      (readPlain [] (a :: r)).rest :=
    fun f _ => readPlain_agrees f (fun _ ha => absurd ha List.not_mem_nil) (a :: r)
  by_cases hstop : a = ',' ∨ a = ')'
  · refine ⟨_, c', _, hresult, hfirst.trans hsecond, .behind_blanks (hcs ▸ hagrees), fun heq => ?_⟩
    have hle := hsecond.suffix.length_le
    rw [heq] at hle
    obtain rfl := hfirst.suffix.eq_of_length (Nat.le_antisymm hfirst.suffix.length_le hle)
    exact Or.inr (hstop.imp (congrArg some) (congrArg some))
  · have hblank : Text.isBlank a = false := Text.not_isBlank_of_skipBlanks_eq_cons hcs
    exact valueEnds_of_shorter hcs hfirst hresult hsecond
      (Nat.le_of_lt_succ (readPlain_length_lt hblank ha hstop r)) hagrees

end Start

/-- Where a group may start, values end if they do with a group there. -/
theorem valuesEnd_of_paren {group : Cursor → Option (Token × Cursor)}
    (hparen : ∀ c c₁ cs r, skipBlanks cs = '(' :: r → Advances text c c₁ cs ('(' :: r) →
      passBlanks text c = some c₁ → c.depth = groups →
      ValueEnds text groups (takeStart text group c) c cs) :
    ValuesEnd text groups (takeStart text group) := by
  intro c cs h hdepth
  obtain ⟨c₁, hblanks, hfirst⟩ := passBlanks_eq h
  cases hcs : skipBlanks cs with
  | nil =>
    rw [hcs] at hfirst
    refine ⟨none, c₁, [], ?_, hfirst, ?_, fun heq => Or.inl heq.symm⟩
    · simp only [takeStart, hblanks, peek_eq hfirst.stands, Option.bind_eq_bind, Option.bind_some,
        List.head?_nil]
    · exact .nothing fun f _ => by rw [← hcs, scan_skipBlanks]
  | cons a r =>
    rw [hcs] at hfirst
    by_cases ha : a = '('
    · subst ha
      exact hparen c c₁ cs r hcs hfirst hblanks hdepth
    · exact valueEnds_plain hcs hfirst hblanks ha

/-- **Values end** with room for as many groups as may still be open. -/
theorem valuesEnd (text : String) (room groups : Nat) (h : groups + room = maxDepth) :
    ValuesEnd text groups (takeValue text room groups) := by
  induction room generalizing groups with
  | zero =>
    exact valuesEnd_of_paren fun c c₁ cs r hcs hfirst hblanks hdepth =>
      valueEnds_full hcs hfirst hblanks rfl hdepth h
  | succ room ih =>
    have hinner := ih (groups + 1) (by omega)
    exact valuesEnd_of_paren fun c c₁ cs r hcs hfirst hblanks hdepth =>
      valueEnds_group hcs hfirst hblanks rfl hdepth (by omega) hinner

/-! ## 5. Whole texts -/

theorem takeTokens_eq (h : Stands text c cs) (hdepth : c.depth = 0) {turns : Nat}
    (hturns : cs.length < turns) (tokens : List Token) :
    ∃ ts c', takeTokens text turns tokens c = some (tokens ++ ts, c') ∧
      Advances text c c' cs [] ∧ AgreesIn 0 cs ts [] := by
  induction turns generalizing c cs tokens with
  | zero => exact absurd hturns (Nat.not_lt_zero _)
  | succ turns ih =>
    rw [takeTokens]
    by_cases hend : cs = []
    · subst hend
      refine ⟨[], c, ?_, .refl h, .nothing fun _ _ => rfl⟩
      rw [if_pos ((size_le_pos_iff h).mpr rfl), List.append_nil]
    · obtain ⟨ts, c₁, rest, hturn, hone, hlt, hagrees⟩ :=
        takeTurn_eq (valuesEnd text maxDepth 0 (Nat.zero_add _)) (Nat.zero_le _) h hdepth hend
          fun _ => rfl
      obtain ⟨us, c', hmore, htwo, hagrees'⟩ :=
        ih hone.stands (hone.depth_eq.trans hdepth) (by omega) (tokens ++ ts)
      refine ⟨ts ++ us, c', ?_, hone.trans htwo, hagrees.append hagrees'⟩
      rw [if_neg (mt (size_le_pos_iff h).mp hend), hturn, Option.bind_eq_bind, Option.bind_some,
        ← List.append_assoc]
      exact hmore

/-- **Reading ends, and no cut fails.** For every text the reader at a cursor comes to an end with
the tokens of the text, at the end of the text and with no group open. So every cut is at the
boundaries of characters, no loop makes more turns than the text has characters, and there is room
on the stack if it can hold 64 groups. All that is noted on the way is sound: the cursor is only ever
at boundaries of characters, each turn of a loop goes on by at least one character, no more than 64
groups are read inside of each other, and as many are counted as open behind a value as in front
of it. -/
theorem reading_ends (text : String) :
    ∃ last : Cursor, takeText text = some (parseTokens text, last) ∧
      last.pos = text.utf8ByteSize ∧ last.depth = 0 ∧ ∀ e ∈ last.events, e.Sound text := by
  have hstart := stands_start text
  obtain ⟨ts, last, hread, hall, hagrees⟩ := takeTokens_eq hstart rfl hstart.lt_enoughTurns []
  obtain ⟨front, htext, hpos⟩ := hall.stands.splits
  refine ⟨last, ?_, ?_, hall.depth_eq, hall.stands.sound⟩
  · obtain ⟨us, rfl, hscan⟩ := hagrees {} rfl
    have htags : scanText text = us := by
      rw [scanText, hscan, scan_nil]
      rfl
    rw [takeText, hread, List.nil_append, parseTokens_eq_map_scanText, htags]
  · rw [hpos, htext]
    exact congrArg String.utf8ByteSize String.append_empty.symm

-- A parenthesis that closes nothing, and a group, not closed, of one tag of two bytes.
example : (takeText ")(é").map (·.2.events.reverse) =
    some [.stands 0, .value 0 0 0, .stands 1, .turn 0 1, .stands 2, .group 1 1, .stands 4,
      .value 1 1 1, .turn 2 4, .value 0 0 0, .turn 1 4] := by
  decide +kernel

end Cursor
end PromptTags.Prompt
