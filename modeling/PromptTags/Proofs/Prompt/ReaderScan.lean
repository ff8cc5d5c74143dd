/-
Reading by recursion is one scan.

The reader descends into groups and has two loops, one for the members of a group and one for whole
prompts; both loops look for a value, and each gets over what starts none in its own way. The scan
knows no values, only characters. What ties them together is `Agrees`: behind what has been read,
the scan goes on as if it had just added the tags that were read. It holds for a tag, for a value
whatever it starts with, for the members of a group, and so for the prompt. The induction is on how
many more groups may be opened, and inside of that on the length of the text.
-/
import PromptTags.Proofs.Prompt.Scan

set_option autoImplicit false

namespace PromptTags.Prompt

open Text

/-- The tokens `ts` read from `cs` are tags, and on what is left the scan goes on as if it had just
added them. -/
def Agrees (f : Frames) (cs : List Char) (ts : List Token) (rest : List Char) : Prop :=
  ∃ us : List Tag, ts = us.map Tag.token ∧ scan f cs = scan (f.add us) rest

/-- The tokens that a value stands for in a sequence. -/
def spliced (value? : Option Token) : List Token := (value?.map Token.spliced).getD []

/-- Where nothing was read, both go on from the same place. -/
theorem Agrees.nothing {f : Frames} {cs rest : List Char} (h : scan f cs = scan f rest) :
    Agrees f cs [] rest :=
  ⟨[], rfl, by rw [Frames.add_nil]; exact h⟩

/-! ## 1. Tags -/

theorem scan_readWeight (f : Frames) (cs : List Char) :
    scan f (readWeight cs).rest = scan f (suffix cs).2 := by
  rw [← scan_skipBlanks, (readWeight_eq_suffix cs).2, scan_skipBlanks]

/-- What the reader takes for the text of a tag ends at the first delimiter. -/
theorem readPlain_append {start text after : List Char} (htext : NoDelimiter (start ++ text))
    (hafter : DelimiterFirst after) :
    (readPlain start (text ++ after)).value
        = (if (trimmed (start ++ text)).isEmpty then none
          else some (.plain (String.ofList (trimmed (start ++ text)))
            ((suffix after).1.getD defaultWeight)))
      ∧ (readPlain start (text ++ after)).rest = (readWeight after).rest := by
  have hend : NoDelimiter text := fun c hc => htext c (List.mem_append_right start hc)
  have hdrop : (text ++ after).dropWhile (!isDelimiter ·) = after := by
    rw [dropWhile_text_append hend, dropWhile_eq_self_of_delimiterFirst hafter]
  have htake : (text ++ after).takeWhile (!isDelimiter ·) = text := by
    rw [takeWhile_text_append hend, takeWhile_eq_nil_of_delimiterFirst hafter, List.append_nil]
  simp only [readPlain]
  rw [hdrop, htake, (readWeight_eq_suffix after).1]
  exact ⟨rfl, rfl⟩

/-- Reading a tag agrees with the scan, also where blanks or nothing at all stand for its text. -/
theorem readPlain_agrees (f : Frames) {start : List Char} (hstart : NoDelimiter start)
    (cs : List Char) :
    Agrees f (start ++ cs) (spliced (readPlain start cs).value) (readPlain start cs).rest := by
  obtain ⟨text, after, htext, hafter, rfl⟩ := exists_text_delimiter cs
  have hall : NoDelimiter (start ++ text) := fun c hc =>
    (List.mem_append.mp hc).elim (hstart c) (htext c)
  obtain ⟨hvalue, hrest⟩ := readPlain_append hall hafter
  rw [hvalue, hrest, ← List.append_assoc]
  by_cases hblank : AllBlank (start ++ text)
  · rw [trimmed_eq_nil_iff.mpr hblank]
    refine Agrees.nothing ?_
    rw [scan_append_blanks f hblank, scan_readWeight, scan_suffix]
  · have hne : (trimmed (start ++ text)).isEmpty = false := by
      rw [List.isEmpty_eq_false_iff]
      exact fun h => hblank (trimmed_eq_nil_iff.mp h)
    rw [hne]
    refine ⟨[⟨String.ofList (trimmed (start ++ text)), (suffix after).1.getD defaultWeight⟩], rfl,
      ?_⟩
    rw [scan_readWeight]
    exact scan_text hall hafter hblank f

/-! ## 2. Values -/

/-- Whether a value can start at `c`: in a group, no value starts at the parenthesis that closes
it. -/
def Starts (f : Frames) (c : Char) : Prop := isBlank c = false ∧ (c = ')' → f.depth = 0)

/-- Reading values agrees with the scan while `room` more groups may be opened. -/
def ValuesAgree (room : Nat) : Prop :=
  ∀ (f : Frames) (c : Char) (cs : List Char), f.depth + room = maxDepth → Starts f c →
    Agrees f (c :: cs) (spliced (readValue room c cs).value) (readValue room c cs).rest

theorem scan_dropComma (f : Frames) (cs : List Char) : scan f (dropComma cs) = scan f cs := by
  unfold dropComma
  split
  · rw [scan_comma]
  · rfl

/-- After a value, blanks and a comma make no difference. -/
theorem scan_next (f : Frames) (cs : List Char) :
    scan f (dropComma (skipBlanks cs)) = scan f cs := by
  rw [scan_dropComma, scan_skipBlanks]

/-- A value, and then all that is read behind it. -/
theorem Agrees.append {f : Frames} {cs rest rest' : List Char} {us : List Tag} {ts : List Token}
    (hone : scan f cs = scan (f.add us) rest)
    (hmore : Agrees (f.add us) (dropComma (skipBlanks rest)) ts rest') :
    Agrees f cs (us.map Tag.token ++ ts) rest' := by
  obtain ⟨vs, hvs, hscan⟩ := hmore
  refine ⟨us ++ vs, ?_, ?_⟩
  · rw [List.map_append, hvs]
  · rw [hone, ← scan_next, hscan, Frames.add_add]

/-- Less text is left behind a value than there was before it. -/
theorem next_length_lt {cs r : List Char} {c : Char} (room : Nat) (h : skipBlanks cs = c :: r) :
    (dropComma (skipBlanks (readValue room c r).rest)).length < cs.length := by
  have hle := skipBlanks_length_le cs
  have hrest := (readValue room c r).rest_le
  have hskip := skipBlanks_length_le (readValue room c r).rest
  have hnext := dropComma_length_le (skipBlanks (readValue room c r).rest)
  rw [h, List.length_cons] at hle
  omega

/-- The members of a group agree with the scan up to where the group ends. -/
theorem readMembers_agrees {room : Nat} (hvalues : ValuesAgree room) (f : Frames)
    (hroom : f.depth + room = maxDepth) (cs : List Char) :
    Agrees f cs (readMembers (readValue room) cs).value (readMembers (readValue room) cs).rest
      ∧ ∀ c ∈ (readMembers (readValue room) cs).rest.head?, c = ')' := by
  -- Each turn of the loop reads a value, and a value takes at least one character.
  induction hn : cs.length using Nat.strong_induction_on generalizing cs f with
  | _ n ih =>
    subst hn
    rw [readMembers]
    split
    · next h =>
      refine ⟨Agrees.nothing ?_, fun c hc => absurd hc (by simp)⟩
      rw [← scan_skipBlanks, h]
    · next c r h =>
      have hscan : scan f cs = scan f (c :: r) := by rw [← scan_skipBlanks, h]
      by_cases hc : c = ')'
      · simp only [if_pos hc]
        refine ⟨Agrees.nothing hscan, fun d hd => ?_⟩
        rw [← Option.some.inj hd, hc]
      · simp only [if_neg hc]
        have hstart : Starts f c := ⟨not_isBlank_of_skipBlanks_eq_cons h, fun hcl => absurd hcl hc⟩
        obtain ⟨us, hus, hone⟩ := hvalues f c r hroom hstart
        obtain ⟨hmore, hend⟩ := ih _ (next_length_lt room h) (f.add us) hroom _ rfl
        have hall := Agrees.append (hscan.trans hone) hmore
        rw [← hus] at hall
        exact ⟨hall, hend⟩

/-- The group that its members make, with the weight behind it if there is one. -/
def groupOf (members : List Token) (weight? : Option Float) : Token :=
  match weight? with
  | some w => .group (members.map (Token.scale w)) w
  | none => .group members defaultWeight

/-- A group that is closed hands its members on with the weight behind it. -/
theorem Agrees.closed {f : Frames} (hlt : f.depth < maxDepth) {cs r : List Char} {ts : List Token}
    (h : Agrees f.opened cs ts (')' :: r)) :
    Agrees f ('(' :: cs) (groupOf ts (readWeight r).value).spliced (readWeight r).rest := by
  obtain ⟨us, rfl, hinner⟩ := h
  have hdepth : 0 < (f.opened.add us).depth := by
    rw [Frames.depth_add, Frames.depth_opened_of_lt hlt]
    exact Nat.succ_pos _
  rw [scan_close hdepth, Frames.closed_add_opened hlt, ← scan_readWeight] at hinner
  refine ⟨Tag.scaleAll (suffix r).1 us, ?_, by rw [scan_open]; exact hinner⟩
  rw [(readWeight_eq_suffix r).1]
  cases (suffix r).1 with
  | none => rfl
  | some w =>
    show (us.map Tag.token).map (Token.scale w) = (us.map (Tag.scale w)).map Tag.token
    rw [List.map_map, List.map_map]
    rfl

/-- A group that is never closed hands its members on as they are. -/
theorem Agrees.unclosed {f : Frames} (hlt : f.depth < maxDepth) {cs : List Char} {ts : List Token}
    (h : Agrees f.opened cs ts []) : Agrees f ('(' :: cs) ts [] := by
  obtain ⟨us, hus, hinner⟩ := h
  refine ⟨us, hus, ?_⟩
  rw [scan_open, hinner, scan_nil, scan_nil, Frames.tags_add_opened hlt]

/-- A group agrees with the scan, with or without the parenthesis that closes it. -/
theorem readGroup_agrees {room : Nat} (hvalues : ValuesAgree room) (f : Frames)
    (hroom : f.depth + (room + 1) = maxDepth) (cs : List Char) :
    Agrees f ('(' :: cs) (spliced (readGroup (readValue room) cs).value)
      (readGroup (readValue room) cs).rest := by
  have hlt : f.depth < maxDepth := by omega
  have hopened : f.opened.depth = f.depth + 1 := Frames.depth_opened_of_lt hlt
  obtain ⟨hinner, hend⟩ := readMembers_agrees hvalues f.opened (by rw [hopened]; omega) cs
  rw [readGroup]
  split
  · next r h =>
    rw [h] at hinner
    exact hinner.closed hlt
  · next hno =>
    -- The text ends before the group does.
    have hnil : (readMembers (readValue room) cs).rest = [] := by
      cases hrest : (readMembers (readValue room) cs).rest with
      | nil => rfl
      | cons c r =>
        have hc : c = ')' := hend c (by rw [hrest]; rfl)
        exact absurd (hc ▸ hrest) (hno r)
    rw [hnil] at hinner
    dsimp only
    rw [hnil]
    exact hinner.unclosed hlt

theorem passOver_agrees (f : Frames) {c : Char} (cs : List Char) (hstart : Starts f c)
    (hd : isDelimiter c = true) (hcolon : c ≠ ':') (hopen : c = '(' → f.depth = maxDepth) :
    Agrees f (c :: cs) (spliced (readValue.passOver c cs).value)
      (readValue.passOver c cs).rest := by
  simp only [isDelimiter, Bool.or_eq_true, beq_iff_eq] at hd
  rw [readValue.passOver]
  obtain ((rfl | rfl) | rfl) | rfl := hd
  · exact Agrees.nothing (scan_comma f cs)
  · have hnone : NoDelimiter [] := fun c hc => absurd hc List.not_mem_nil
    obtain ⟨us, hus, hscan⟩ := readPlain_agrees f hnone cs
    rw [if_pos rfl]
    -- The reader goes on with a tag behind the parenthesis that it passes over.
    refine ⟨us, hus, ?_⟩
    rw [scan_open, Frames.opened_of_full (hopen rfl)]
    exact hscan
  · exact Agrees.nothing (scan_stray_close (hstart.2 rfl) cs)
  · exact absurd rfl hcolon

theorem readStart_agrees (f : Frames) {c : Char} (cs : List Char)
    (hc : isDelimiter c = false ∨ c = ':') :
    Agrees f (c :: cs) (spliced (readValue.readStart c cs).value)
      (readValue.readStart c cs).rest := by
  rw [readValue.readStart]
  by_cases hcolon : c = ':'
  · subst hcolon
    rw [if_pos rfl]
    refine Agrees.nothing ?_
    dsimp only
    rw [scan_colon, (splitNumber_eq_numberText cs).2]
  · have hname : NoDelimiter [c] := by
      intro a ha
      rw [List.mem_singleton.mp ha]
      exact hc.resolve_right hcolon
    rw [if_neg hcolon]
    exact readPlain_agrees f hname cs

/-- Whatever a value starts with, reading it agrees with the scan. -/
theorem valuesAgree (room : Nat) : ValuesAgree room := by
  induction room with
  | zero =>
    -- No group may be opened any more, so a parenthesis is passed over.
    intro f c cs hroom hstart
    rw [readValue]
    split_ifs with h
    · rw [Bool.and_eq_true, bne_iff_ne] at h
      exact passOver_agrees f cs hstart h.1 h.2 fun _ => hroom
    · exact readStart_agrees f cs (by simpa [or_iff_not_imp_left] using h)
  | succ room ih =>
    intro f c cs hroom hstart
    rw [readValue]
    split_ifs with hopen h
    · rw [hopen]
      exact readGroup_agrees ih f hroom cs
    · rw [Bool.and_eq_true, bne_iff_ne] at h
      exact passOver_agrees f cs hstart h.1 h.2 fun hc => absurd hc hopen
    · exact readStart_agrees f cs (by simpa [or_iff_not_imp_left] using h)

/-! ## 3. Whole prompts -/

/-- The reader's loop over a whole prompt agrees with the scan, outside of all groups. -/
theorem readTokens_agrees (f : Frames) (hf : f.depth = 0) (cs : List Char) :
    Agrees f cs (readTokens cs) [] := by
  induction hn : cs.length using Nat.strong_induction_on generalizing cs f with
  | _ n ih =>
    subst hn
    rw [readTokens]
    split
    · next h =>
      refine Agrees.nothing ?_
      rw [← scan_skipBlanks, h]
    · next c r h =>
      have hscan : scan f cs = scan f (c :: r) := by rw [← scan_skipBlanks, h]
      have hstart : Starts f c := ⟨not_isBlank_of_skipBlanks_eq_cons h, fun _ => hf⟩
      obtain ⟨us, hus, hone⟩ :=
        valuesAgree maxDepth f c r (by rw [hf, Nat.zero_add]) hstart
      have hmore := ih _ (next_length_lt maxDepth h) (f.add us) hf _ rfl
      have hall := Agrees.append (hscan.trans hone) hmore
      rw [← hus] at hall
      exact hall

theorem parseTokens_eq_map_scanText (text : String) :
    parseTokens text = (scanText text).map Tag.token := by
  obtain ⟨us, hus, hscan⟩ := readTokens_agrees {} rfl text.toList
  have htags : scanText text = us := by rw [scanText, hscan, scan_nil]; rfl
  rw [parseTokens, hus, htags]

theorem parse_eq_scanText (text : String) : parse text = scanText text := by
  have htag : Token.tag? ∘ Tag.token = some := rfl
  rw [parse, parseTokens_eq_map_scanText, List.filterMap_map, htag, List.filterMap_some]

/-- **Reading is one scan.** The recursive reader gives the tags of one scan from left to right with
a stack of open groups, in the same order, as tokens and as tags. -/
theorem recursive_reader_eq_scan (text : String) :
    parseTokens text = (scanText text).map Tag.token ∧ parse text = scanText text :=
  ⟨parseTokens_eq_map_scanText text, parse_eq_scanText text⟩

end PromptTags.Prompt
