/-
Trees that are written in JSON and read again.

An entry of a tree is an object, and a directory has an object with its entries inside, so each
directory takes two levels of the room that the reader has. The reader puts the entries of a
directory into their places one by one, and entries that are in order already stay where they are
(`foldl_insert_of_sorted`). So an entry that is in order all the way down comes back
(`ofSound?_toJson`), and what is read is always in order (`ordered_of_ofSound?`).
-/
import PromptTags.Proofs.Catalog.Listing
import PromptTags.Proofs.Json.Records

set_option autoImplicit false

namespace PromptTags

open Json (Value Format)

/-! ## 1. Entries in order -/

namespace TreeItem

mutual
/-- How many directories are inside each other. -/
def depth : TreeItem → Nat
  | file _ => 0
  | directory _ children => depthOf children + 1

def depthOf : List (String × TreeItem) → Nat
  | [] => 0
  | (_, item) :: rest => max (depth item) (depthOf rest)
end

/-- The entries of every directory are sorted by name, and no name stands twice. -/
inductive Ordered : TreeItem → Prop where
  | file (path : String) : Ordered (.file path)
  | directory (path : String) {children : TagTree} (sorted : children.Pairwise fun a b => a.1 < b.1)
      (ordered : ∀ e ∈ children, Ordered e.2) : Ordered (.directory path children)

/-- What a scan finds is in order. -/
theorem Placed.ordered {names : List String} {item : TreeItem} (h : Placed names item) :
    item.Ordered := by
  induction h with
  | file => exact .file _
  | directory sorted _ _ _ ih => exact .directory _ sorted ih

end TreeItem

namespace TagTree

variable {t items : TagTree} {name : String} {item : TreeItem}

theorem insert_of_lt (h : ∀ e ∈ t, e.1 < name) : insert name item t = t ++ [(name, item)] := by
  induction t with
  | nil => rfl
  | cons e es ih =>
    obtain ⟨hfirst, hrest⟩ := List.forall_mem_cons.mp h
    rw [insert, if_neg (not_lt.mpr hfirst.le), if_pos hfirst, ih hrest, List.cons_append]

/-- Entries that are in order are put one behind the other. -/
theorem foldl_insert_of_sorted (h : (t ++ items).Pairwise fun a b => a.1 < b.1) :
    items.foldl (fun t e => insert e.1 e.2 t) t = t ++ items := by
  induction items generalizing t with
  | nil => exact (List.append_nil t).symm
  | cons e es ih =>
    have hlast : insert e.1 e.2 t = t ++ [e] :=
      insert_of_lt fun d hd => (List.pairwise_append.mp h).2.2 d hd e List.mem_cons_self
    rw [List.foldl_cons, hlast, ih (by rw [List.append_assoc]; exact h), List.append_assoc]
    rfl

/-- Entries in any order are put in order. -/
theorem ordered_foldl_insert (path : String) (ht : (TreeItem.directory path t).Ordered)
    (hitems : ∀ e ∈ items, e.2.Ordered) :
    (TreeItem.directory path (items.foldl (fun t e => insert e.1 e.2 t) t)).Ordered := by
  induction items generalizing t with
  | nil => exact ht
  | cons e es ih =>
    obtain ⟨hfirst, hrest⟩ := List.forall_mem_cons.mp hitems
    refine ih ?_ hrest
    cases ht with
    | directory _ sorted ordered =>
      refine .directory path (sorted_insert sorted) fun d hd => ?_
      obtain rfl | hd := mem_insert hd
      · exact hfirst
      · exact ordered d hd

end TagTree

namespace TreeItem

/-! ## 2. What is written -/

/-- The fields that hold the entries of a directory. -/
def fieldsOf (children : List (String × TreeItem)) : List (Option String × Value) :=
  (childrenJson children).map fun f => (some f.1, f.2)

theorem fieldsOf_cons (name : String) (item : TreeItem) (rest : List (String × TreeItem)) :
    fieldsOf ((name, item) :: rest) = (some name, item.toJson) :: fieldsOf rest := by
  rw [fieldsOf, childrenJson, List.map_cons, fieldsOf]

theorem toJson_directory (path : String) (children : List (String × TreeItem)) :
    (directory path children).toJson = .object [(some "type", .ofText "directory"),
      (some "path", .ofText path), (some "children", .object (fieldsOf children))] := by
  rw [toJson]
  rfl

mutual
/-- There are no numbers in a tree, so its value is read as it is. -/
theorem reread_toJson : ∀ item : TreeItem, item.toJson.reread = item.toJson
  | file path => rfl
  | directory path children => by
    rw [toJson_directory]
    simp only [Value.reread, Value.rereadFields, rereadFields_fieldsOf children]
    rfl

theorem rereadFields_fieldsOf : ∀ children : List (String × TreeItem),
    Value.rereadFields (fieldsOf children) = fieldsOf children
  | [] => rfl
  | (name, item) :: rest => by
    rw [fieldsOf_cons, Value.rereadFields, reread_toJson item, rereadFields_fieldsOf rest]
    rfl
end

mutual
theorem sound_toJson : ∀ (item : TreeItem) (room : Nat), 2 * item.depth + 1 ≤ room →
    item.toJson.sound room = true
  | file path, room + 1, _ => rfl
  | directory path children, room + 2, hroom => by
    rw [depth] at hroom
    have hchildren := soundFields_fieldsOf children room (by omega)
    rw [toJson_directory]
    simp [Value.sound, Value.soundFields, Value.ofText, hchildren]
  | directory path children, 1, hroom => by
    rw [depth] at hroom
    omega

theorem soundFields_fieldsOf : ∀ (children : List (String × TreeItem)) (room : Nat),
    2 * depthOf children + 1 ≤ room → Value.soundFields room (fieldsOf children) = true
  | [], room, _ => by rw [fieldsOf, childrenJson, List.map_nil, Value.soundFields]
  | (name, item) :: rest, room, hroom => by
    rw [depthOf] at hroom
    have hfirst := sound_toJson item room (by omega)
    have hrest := soundFields_fieldsOf rest room (by omega)
    rw [fieldsOf_cons, Value.soundFields, hfirst, hrest]
    rfl
end

theorem parts?_file (inside : Bool) (path : String) :
    parts? inside (file path).toJson = some (.ofText path, none) := rfl

theorem parts?_directory (inside : Bool) (path : String) (children : List (String × TreeItem)) :
    parts? inside (directory path children).toJson =
      some (.ofText path, some (.object (fieldsOf children))) := rfl

/-- Reads a field of a directory. -/
def childOfSound? (room : Nat) (c : Option String × Value) : Option (String × TreeItem) := do
  return (← c.1, ← ofSound? room true c.2)

mutual
/-- **An entry that is in order comes back**, if there is room for its directories. -/
theorem ofSound?_toJson : ∀ (item : TreeItem) (room : Nat) (inside : Bool), item.Ordered →
    2 * item.depth + 1 ≤ room → ofSound? room inside item.toJson = some item
  | file path, room + 1, inside, _, _ => by
    rw [ofSound?, parts?_file]
    rfl
  | directory path children, room + 2, inside, .directory _ sorted ordered, hroom => by
    rw [depth] at hroom
    have hchildren := mapM_childOfSound? children room ordered (by omega)
    rw [ofSound?, parts?_directory]
    show ((fieldsOf children).mapM (childOfSound? room)).bind _ = _
    rw [hchildren, Option.bind_some]
    show some (directory path (children.foldl (fun t e => TagTree.insert e.1 e.2 t) [])) = _
    rw [TagTree.foldl_insert_of_sorted (t := []) sorted, List.nil_append]
  | directory path children, 1, inside, _, hroom => by
    rw [depth] at hroom
    omega

theorem mapM_childOfSound? : ∀ (children : List (String × TreeItem)) (room : Nat),
    (∀ e ∈ children, e.2.Ordered) → 2 * depthOf children + 1 ≤ room →
      (fieldsOf children).mapM (childOfSound? room) = some children
  | [], room, _, _ => rfl
  | (name, item) :: rest, room, h, hroom => by
    rw [depthOf] at hroom
    obtain ⟨hitem, hrest⟩ := List.forall_mem_cons.mp h
    have hfirst := ofSound?_toJson item room true hitem (by omega)
    rw [fieldsOf_cons, Option.mapM_cons_eq_some_iff]
    refine ⟨?_, mapM_childOfSound? rest room hrest (by omega)⟩
    rw [childOfSound?, hfirst]
    rfl
end

/-- The value of an entry passes the check in front of the reading. -/
theorem ofJson?_toJson {item : TreeItem} (hordered : item.Ordered) (hdepth : item.depth ≤ 40) :
    ofJson? item.toJson = some item := by
  have hroom : Json.deepest = 127 := rfl
  have hread := ofSound?_toJson item Json.deepest false hordered (by omega)
  cases item with
  | file path =>
    unfold ofJson?
    rw [hread]
    rfl
  | directory path children =>
    rw [depth] at hdepth
    have hchildren : (Value.object (fieldsOf children)).sound (Json.deepest - 1) = true :=
      soundFields_fieldsOf children 125 (by omega)
    have hpath : (Value.ofText path).sound (Json.deepest - 1) = true := rfl
    unfold ofJson?
    rw [hread, toJson_directory]
    simp [hchildren, hpath]

/-! ## 3. What is read -/

theorem ordered_of_ofSound? {room : Nat} {inside : Bool} {v : Value} {item : TreeItem}
    (h : ofSound? room inside v = some item) : item.Ordered := by
  induction room using Nat.strong_induction_on generalizing inside v item with
  | _ room ih =>
    unfold ofSound? at h
    split at h
    · cases h
    · split at h
      · obtain ⟨path, -, rfl⟩ := Option.map_eq_some_iff.mp h
        exact .file path
      · split at h
        · cases h
        · simp only [Option.bind_eq_bind, Option.bind_eq_some_iff] at h
          obtain ⟨path, -, items, hitems, h⟩ := h
          obtain rfl := Option.some.inj h
          refine TagTree.ordered_foldl_insert path (.directory path List.Pairwise.nil nofun) ?_
          intro e he
          obtain ⟨c, -, hc⟩ := Option.exists_of_mem_mapM hitems he
          simp only [Option.bind_eq_some_iff] at hc
          obtain ⟨name, -, below, hbelow, hc⟩ := hc
          obtain rfl := Option.some.inj hc
          exact ih _ (by omega) hbelow
      · cases h

theorem ordered_of_ofJson? {v : Value} {item : TreeItem} (h : ofJson? v = some item) :
    item.Ordered := by
  unfold ofJson? at h
  dsimp only at h
  split_ifs at h
  exact ordered_of_ofSound? h

/-! ## 4. The format -/

def format : Format TreeItem where
  toJson := toJson
  ofJson? := ofJson?
  weights _ := []
  depth := depth
  Ordered := Ordered

theorem lawful_format : format.Lawful where
  reread item hordered hdepth := by
    refine iff_of_true ?_ nofun
    show ofJson? item.toJson.reread = some item
    rw [reread_toJson, ofJson?_toJson hordered hdepth]
  finite _ _ := nofun
  ordered := ordered_of_ofJson?

end TreeItem

end PromptTags
