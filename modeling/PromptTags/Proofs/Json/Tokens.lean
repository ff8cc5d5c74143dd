/-
Tokens that are written in JSON and read again.

A token is an object around an object, and a group has the list of its members inside, so each group
takes three levels of the room that the reader has. The payload is written with its kind first, and
is read as it comes then (`payload?_reread`). By induction on the token, it comes back if there is
room for its groups (`ofJsonWithin?_reread`). For what is read from any other value, it is enough
that the weights of a token are numbers of the value (`isFinite_of_mem_weights`).
-/
import PromptTags.Proofs.Json.Records

set_option autoImplicit false

namespace PromptTags.Prompt.Token

open Json (Value Format ReadsBack)

/-! ## 1. Weights and depth -/

mutual
/-- The weights of a token and of all that is in it. -/
def weights : Token → List Float
  | plain _ w => [w]
  | group ms w => w :: weightsOf ms

def weightsOf : List Token → List Float
  | [] => []
  | t :: ts => weights t ++ weightsOf ts
end

mutual
/-- How many groups are inside each other. -/
def depth : Token → Nat
  | plain _ _ => 0
  | group ms _ => depthOf ms + 1

def depthOf : List Token → Nat
  | [] => 0
  | t :: ts => max (depth t) (depthOf ts)
end

theorem mem_weightsOf {ts : List Token} {w : Float} :
    w ∈ weightsOf ts ↔ ∃ t ∈ ts, w ∈ t.weights := by
  induction ts with
  | nil => simp [weightsOf]
  | cons t ts ih => simp [weightsOf, ih]

/-! ## 2. What is written -/

/-- The parts that the value of a token is read as. -/
theorem parts?_reread (room : Nat) (kind : Kind) (content : Value) (weight : Float) :
    parts? room false (payloadJson kind content weight).reread =
      ((Value.ofFloat weight).reread.float?).map fun w => (w, kind, content.reread, false) := by
  have hfields : (payloadJson kind content weight).reread.record? ["value", "weight"] =
      some [some (.ofFields [("kind", .ofText kind.name), ("value", content.reread)]),
        some (Value.ofFloat weight).reread] := rfl
  have hpayload : payload? room false
      (.ofFields [("kind", .ofText kind.name), ("value", content.reread)]) =
        some (kind, content.reread, false) := by cases kind <;> rfl
  rw [parts?, hfields]
  simp only [hpayload]
  cases (Value.ofFloat weight).reread.float? <;> rfl

mutual
/-- **A token comes back just when its weights do**, if there is room for its groups. -/
theorem ofJsonWithin?_reread : ∀ (t : Token) (room : Nat), 3 * t.depth + 2 ≤ room →
    (ofJsonWithin? room false t.toJson.reread = some t ↔ ∀ w ∈ t.weights, ReadsBack w)
  | plain name weight, room + 2, _ => by
    rw [toJson, ofJsonWithin?, parts?_reread, weights, List.forall_mem_singleton,
      Json.readsBack_iff]
    cases (Value.ofFloat weight).reread.float? with
    | none => simp
    | some w => simp [Value.ofText, Value.reread, Value.text?]
  | group ms weight, room + 3, hroom => by
    rw [depth] at hroom
    have hmembers := mapM_ofJsonWithin?_reread ms room (by omega)
    rw [toJson, ofJsonWithin?, parts?_reread, weights, List.forall_mem_cons, ← hmembers,
      Json.readsBack_iff]
    cases (Value.ofFloat weight).reread.float? with
    | none => simp
    | some w =>
      show ((Value.rereadItems (membersJson ms)).mapM (ofJsonWithin? room false)).map _ = _ ↔ _
      rw [Option.map_eq_some_iff]
      simp [and_comm]
  | group ms weight, 2, hroom => by
    rw [depth] at hroom
    omega

/-- The members of a group come back with the group. -/
theorem mapM_ofJsonWithin?_reread : ∀ (ts : List Token) (room : Nat), 3 * depthOf ts + 2 ≤ room →
    ((Value.rereadItems (membersJson ts)).mapM (ofJsonWithin? room false) = some ts ↔
      ∀ w ∈ weightsOf ts, ReadsBack w)
  | [], room, _ => iff_of_true rfl nofun
  | t :: ts, room, hroom => by
    rw [depthOf] at hroom
    have hfirst := ofJsonWithin?_reread t room (by omega)
    have hrest := mapM_ofJsonWithin?_reread ts room (by omega)
    rw [membersJson, Value.rereadItems, Option.mapM_cons_eq_some_iff, hfirst, hrest, weightsOf,
      List.forall_mem_append]
end

/-! ## 3. What is read -/

/-- The content of a payload is a part of it. -/
theorem finite_payload? {room : Nat} {ahead aheadOfKind : Bool} {v content : Value} {kind : Kind}
    (hv : v.Finite) (h : payload? room ahead v = some (kind, content, aheadOfKind)) :
    content.Finite := by
  unfold payload? at h
  split at h
  · cases hv with
    | list hitems =>
      obtain ⟨k, -, h⟩ := Option.map_eq_some_iff.mp h
      obtain ⟨-, rfl, -⟩ := by simpa using h
      exact hitems _ (by simp)
  · next fields =>
    cases hv with
    | object hfields =>
      -- The two fields that count are fields of the payload, in one order or in the other.
      have hmem : ∀ {w : Value} {gs : List (Option String × Value)},
          fields.filter (fun f => f.1 == some "kind" || f.1 == some "value") = gs →
            (some "value", w) ∈ gs → w.Finite :=
        fun heq hw => hfields _ (List.mem_of_mem_filter (heq ▸ hw))
      split_ifs at h
      split at h
      · next hfilter =>
        obtain ⟨k, -, h⟩ := Option.map_eq_some_iff.mp h
        obtain ⟨-, rfl, -⟩ := by simpa using h
        exact hmem hfilter (by simp)
      · next hfilter =>
        split_ifs at h
        obtain ⟨k, -, h⟩ := Option.map_eq_some_iff.mp h
        obtain ⟨-, rfl, -⟩ := by simpa using h
        exact hmem hfilter (by simp)
      · cases h
  · cases h

theorem finite_parts? {room : Nat} {ahead aheadOfKind : Bool} {v content : Value} {kind : Kind}
    {w : Float} (hv : v.Finite) (h : parts? room ahead v = some (w, kind, content, aheadOfKind)) :
    w.isFinite = true ∧ content.Finite := by
  unfold parts? at h
  split at h
  · next payload weight hfound =>
    have hfields := hv.record? hfound
    simp only [Option.bind_eq_bind, Option.bind_eq_some_iff] at h
    obtain ⟨x, hx, parts, hparts, h⟩ := h
    obtain ⟨rfl, rfl⟩ := Prod.mk.inj (Option.some.inj h)
    exact ⟨(hfields _ (by simp) _ rfl).float? hx, finite_payload? (hfields _ (by simp) _ rfl) hparts⟩
  · cases h

/-- **The weights of a token that was read are finite.** -/
theorem isFinite_of_mem_weights {room : Nat} {ahead : Bool} {v : Value} {t : Token} (hv : v.Finite)
    (h : ofJsonWithin? room ahead v = some t) : ∀ w ∈ t.weights, w.isFinite = true := by
  induction room using Nat.strong_induction_on generalizing ahead v t with
  | _ room ih =>
    unfold ofJsonWithin? at h
    split at h
    · split at h
      · next hparts =>
        obtain ⟨name, -, rfl⟩ := Option.map_eq_some_iff.mp h
        exact List.forall_mem_singleton.mpr (finite_parts? hv hparts).1
      · next members _ hparts =>
        obtain ⟨hweight, hcontent⟩ := finite_parts? hv hparts
        split at h
        · cases h
        · obtain ⟨ms, hms, rfl⟩ := Option.map_eq_some_iff.mp h
          refine List.forall_mem_cons.mpr ⟨hweight, fun w hw => ?_⟩
          obtain ⟨m, hm, hw⟩ := mem_weightsOf.mp hw
          obtain ⟨item, hitem, hread⟩ := Option.exists_of_mem_mapM hms hm
          cases hcontent with
          | list hitems => exact ih _ (by omega) (hitems item hitem) hread w hw
      · cases h
    · cases h

/-! ## 4. The format -/

def format : Format Token where
  toJson := toJson
  ofJson? := ofJson?
  weights := weights
  depth := depth
  Ordered _ := True

theorem lawful_format : format.Lawful where
  reread t _ hdepth := ofJsonWithin?_reread t Json.deepest (by
    have hle : t.depth ≤ 40 := hdepth
    have hroom : Json.deepest = 127 := rfl
    omega)
  finite := isFinite_of_mem_weights
  ordered _ := trivial

end PromptTags.Prompt.Token
