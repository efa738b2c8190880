import BoardDesign.Proofs.File.Contents
import BoardDesign.Proofs.Table
import BoardDesign.Proofs.Text.Utf8
import BoardDesign.Stage.Inputs

/-!
# What is digested tells what it was made from

The bytes that are digested tell the fields that they are the bytes of, and the fields of a
directory tell what a reader finds in it.

* `Inputs.bytes_inj`: fields with the same bytes are the same;
* `entryField_inj`: the field of an entry tells where it lies and what a reader finds there;
* `dirFields_append_inj`: where the fields of a directory end does not depend on what follows, if
  that is not named like an entry;
* `dirFields_eq_iff`: the fields of two directories are the same just where the directories are
  the same for a reader, or both are missing.
-/

namespace BoardDesign

open File

/-! ## Fields -/

namespace Stage

/-- The lengths of the name and of the data can be written in eight bytes. -/
structure Field.Fits (f : Field) : Prop where
  name : (Text.Utf8.bytes f.name).length < Nat.pow 2 64
  data : f.data.length < Nat.pow 2 64

instance (f : Field) : Decidable f.Fits :=
  decidable_of_iff ((Text.Utf8.bytes f.name).length < Nat.pow 2 64 ∧ f.data.length < Nat.pow 2 64)
    ⟨fun h => ⟨h.1, h.2⟩, fun h => ⟨h.name, h.data⟩⟩

theorem Field.ext {f g : Field} (name : f.name = g.name) (data : f.data = g.data) : f = g := by
  cases f
  cases g
  rw [Field.mk.injEq]
  exact ⟨name, data⟩

theorem Field.bytes_append_inj {f g : Field} (fits : f.Fits) (fits' : g.Fits) {r s : List UInt8}
    (h : f.bytes ++ r = g.bytes ++ s) : f = g ∧ r = s := by
  rw [bytes, bytes, List.append_assoc, List.append_assoc] at h
  obtain ⟨names, h⟩ := measured_inj fits.name fits'.name h
  obtain ⟨data, rest⟩ := measured_inj fits.data fits'.data h
  exact ⟨Field.ext (Text.Utf8.bytes_inj names) data, rest⟩

@[simp] theorem Field.ofText_inj {name s t : String} :
    Field.ofText name s = Field.ofText name t ↔ s = t :=
  ⟨fun same => Text.Utf8.bytes_inj (congrArg Field.data same), congrArg _⟩

theorem Field.bytes_ne_nil (f : Field) : f.bytes ≠ [] := by
  simp [bytes, measured, Digest.littleEndian]

theorem flatMap_bytes_inj {fs gs : List Field} (fits : ∀ f ∈ fs, f.Fits) (fits' : ∀ g ∈ gs, g.Fits)
    (h : fs.flatMap Field.bytes = gs.flatMap Field.bytes) : fs = gs := by
  induction fs generalizing gs with
  | nil =>
    cases gs with
    | nil => rfl
    | cons g gs => exact absurd (List.append_eq_nil_iff.mp h.symm).1 g.bytes_ne_nil
  | cons f fs ih =>
    cases gs with
    | nil => exact absurd (List.append_eq_nil_iff.mp h).1 f.bytes_ne_nil
    | cons g gs =>
      obtain ⟨rfl, rest⟩ := Field.bytes_append_inj (fits f (.head _)) (fits' g (.head _)) h
      rw [ih (fun f mem => fits f (.tail _ mem)) (fun g mem => fits' g (.tail _ mem)) rest]

/-- All lengths among the inputs can be written in eight bytes. -/
def Inputs.Fits (i : Inputs) : Prop := ∀ f ∈ i.fields, f.Fits

instance (i : Inputs) : Decidable i.Fits := inferInstanceAs (Decidable (∀ f ∈ i.fields, f.Fits))

theorem Inputs.bytes_inj {i j : Inputs} (fits : i.Fits) (fits' : j.Fits) (h : i.bytes = j.bytes) :
    i = j :=
  congrArg Inputs.mk (flatMap_bytes_inj fits fits' h)

/-! ## The field of an entry -/

theorem toList_joinWith_slash (l : Location) :
    (Text.joinWith "/" l).toList = Text.joinPieces '/' (l.map String.toList) := by
  induction l with
  | nil => rfl
  | cons name rest ih =>
    cases rest with
    | nil => rfl
    | cons next more => simp [Text.joinWith, Text.joinPieces, ih]

/-- What is written of an entry after the name of the input that it belongs to. -/
def entryTail (e : Location × Option (List UInt8)) : List Char :=
  Text.joinPieces '/' (e.1.map String.toList) ++ if e.2.isNone then ['/'] else []

theorem entryField_eq (name : String) (e : Location × Node) :
    (entryField name e).name.toList = name.toList ++ '/' :: entryTail (Tree.entry e) ∧
      (entryField name e).data = e.2.content?.getD [] := by
  obtain ⟨l, n⟩ := e
  cases n <;>
    simp [entryField, entryTail, Tree.entry, Node.content?, toList_joinWith_slash]

/-- The names on the way to an entry, and nothing after the slash at the end of a directory. -/
theorem pieces_entryTail {e : Location × Option (List UInt8)} (proper : e.1 ≠ [])
    (named : ∀ name ∈ e.1, IsName name) :
    Text.pieces '/' (entryTail e) = e.1.map String.toList ++ if e.2.isNone then [[]] else [] := by
  have noSlash : ∀ piece ∈ e.1.map String.toList, '/' ∉ piece := by
    intro piece mem
    obtain ⟨name, below, rfl⟩ := List.mem_map.mp mem
    exact (named name below).noSlash
  have names := Path.pieces_joinPieces noSlash (by simpa using proper)
  rw [entryTail]
  split
  · rw [Text.pieces_append_sep, names]
    rfl
  · rw [List.append_nil, List.append_nil, names]

theorem entryTail_inj {e e' : Location × Option (List UInt8)} (proper : e.1 ≠ [])
    (proper' : e'.1 ≠ []) (named : ∀ name ∈ e.1, IsName name) (named' : ∀ name ∈ e'.1, IsName name)
    (h : entryTail e = entryTail e') : e.1 = e'.1 ∧ e.2.isNone = e'.2.isNone := by
  have filled {l : Location} (named : ∀ name ∈ l, IsName name) : [] ∉ l.map String.toList := by
    intro mem
    obtain ⟨name, below, empty⟩ := List.mem_map.mp mem
    exact (named name below).toList_ne_nil empty
  have pieces := congrArg (Text.pieces '/') h
  rw [pieces_entryTail proper named, pieces_entryTail proper' named'] at pieces
  -- Only a directory leaves an empty piece.
  have kinds : e.2.isNone = e'.2.isNone := by
    have empty : [] ∈ e.1.map String.toList ++ (if e.2.isNone then [[]] else []) ↔
        [] ∈ e'.1.map String.toList ++ (if e'.2.isNone then [[]] else []) := by rw [pieces]
    rw [List.mem_append, List.mem_append, or_iff_right (filled named),
      or_iff_right (filled named')] at empty
    cases dir : e.2.isNone <;> cases dir' : e'.2.isNone <;> simp [dir, dir'] at empty ⊢
  refine ⟨?_, kinds⟩
  rw [kinds] at pieces
  exact List.map_injective_iff.mpr (fun _ _ => String.toList_inj.mp) (List.append_cancel_right pieces)

theorem entryField_inj {name : String} {e e' : Location × Node} (proper : e.1 ≠ [])
    (proper' : e'.1 ≠ []) (named : ∀ name ∈ e.1, IsName name) (named' : ∀ name ∈ e'.1, IsName name)
    (h : entryField name e = entryField name e') : Tree.entry e = Tree.entry e' := by
  have names := congrArg (·.name.toList) h
  have data := congrArg (·.data) h
  simp only [(entryField_eq name _).1, (entryField_eq name _).2] at names data
  have tails := (List.cons.inj (List.append_cancel_left names)).2
  obtain ⟨places, kinds⟩ : (Tree.entry e).1 = (Tree.entry e').1 ∧
      (Tree.entry e).2.isNone = (Tree.entry e').2.isNone :=
    entryTail_inj proper proper' named named' tails
  refine Prod.ext places ?_
  change e.2.content? = e'.2.content?
  change e.2.content?.isNone = e'.2.content?.isNone at kinds
  cases some : e.2.content? <;> cases some' : e'.2.content? <;> simp_all

/-! ## The fields of a directory -/

/-- The field is named like that of an entry below the input that is called `name`. -/
def Field.isBelow (name : String) (f : Field) : Bool :=
  (name.toList ++ ['/']).isPrefixOf f.name.toList

theorem isBelow_ofText (name other text : String) :
    (Field.ofText other text).isBelow name = (name.toList ++ ['/']).isPrefixOf other.toList := rfl

theorem isBelow_entryField (name : String) (e : Location × Node) :
    (entryField name e).isBelow name = true := by
  rw [Field.isBelow, List.isPrefixOf_iff_prefix, (entryField_eq name e).1]
  exact ⟨entryTail (Tree.entry e), by simp⟩

/-- Where a list ends of which each element has a property and the next one has not. -/
theorem append_inj_of_all {α : Type} {p : α → Bool} {xs ys r s : List α} (all : ∀ x ∈ xs, p x)
    (all' : ∀ x ∈ ys, p x) (ends : ∀ x ∈ r.head?, p x = false) (ends' : ∀ x ∈ s.head?, p x = false)
    (h : xs ++ r = ys ++ s) : xs = ys ∧ r = s := by
  have none {r : List α} (ends : ∀ x ∈ r.head?, p x = false) : r.takeWhile p = [] := by
    cases r with
    | nil => rfl
    | cons x _ => simp [ends x rfl]
  have front := congrArg (List.takeWhile p) h
  rw [List.takeWhile_append_of_pos all, List.takeWhile_append_of_pos all', none ends,
    none ends', List.append_nil, List.append_nil] at front
  subst front
  exact ⟨rfl, List.append_cancel_left h⟩

end Stage

/-- What a reader finds in the directory at a path, if there is one. -/
def World.treeAt (w : World) (path : String) : Option (Location → Option (Option (List UInt8))) :=
  match w.locate path with
  | .ok l => if w.isDirAt l then some (w.files.view l) else none
  | .error _ => none

namespace Stage

variable {w w' : World} {name path path' : String}

theorem dirFields_cases (w : World) (name path : String) :
    (w.treeAt path = none ∧ dirFields w name path = [Field.ofText name "<absent>"]) ∨
    ∃ l, w.files.find? l = some .dir ∧ w.treeAt path = some (w.files.view l) ∧
      dirFields w name path = treeFields name (w.files.contents l) := by
  unfold World.treeAt dirFields
  cases w.locate path with
  | error => exact .inl ⟨rfl, rfl⟩
  | ok l =>
    by_cases dir : w.isDirAt l = true
    · exact .inr ⟨l, World.isDirAt_iff.mp dir, if_pos dir, if_pos dir⟩
    · exact .inl ⟨if_neg dir, if_neg dir⟩

/-- The fields of a directory are one for itself and those of its entries. -/
theorem dirFields_eq_cons (w : World) (name path : String) :
    ∃ marker entries, dirFields w name path = Field.ofText name marker :: entries ∧
      ∀ f ∈ entries, f.isBelow name = true := by
  obtain ⟨_, whole⟩ | ⟨l, _, _, whole⟩ := dirFields_cases w name path
  · exact ⟨_, [], whole, by simp⟩
  · refine ⟨_, _, whole, fun f mem => ?_⟩
    obtain ⟨e, _, rfl⟩ := List.mem_map.mp mem
    exact isBelow_entryField name e

/-- The fields of a directory end where the next field is not named like an entry of it. -/
theorem dirFields_append_inj {r s : List Field} (ends : ∀ f ∈ r.head?, f.isBelow name = false)
    (ends' : ∀ f ∈ s.head?, f.isBelow name = false)
    (h : dirFields w name path ++ r = dirFields w' name path' ++ s) :
    dirFields w name path = dirFields w' name path' ∧ r = s := by
  obtain ⟨marker, entries, whole, below⟩ := dirFields_eq_cons w name path
  obtain ⟨marker', entries', whole', below'⟩ := dirFields_eq_cons w' name path'
  rw [whole, whole', List.cons_append, List.cons_append] at h
  obtain ⟨first, more⟩ := List.cons.inj h
  obtain ⟨rfl, rest⟩ := append_inj_of_all below below' ends ends' more
  exact ⟨by rw [whole, whole', first], rest⟩

/-- The fields of an input that is called otherwise are no entries. -/
theorem not_isBelow_head_dirFields {other : String} (rest : List Field)
    (apart : (name.toList ++ ['/']).isPrefixOf other.toList = false) :
    ∀ f ∈ (dirFields w other path ++ rest).head?, f.isBelow name = false := by
  obtain ⟨marker, entries, whole, _⟩ := dirFields_eq_cons w other path
  rw [whole]
  rintro f ⟨⟩
  exact apart

theorem entryField_congr {e e' : Location × Node} (same : Tree.entry e = Tree.entry e') :
    entryField name e = entryField name e' := by
  have contents : e.2.content? = e'.2.content? := congrArg Prod.snd same
  refine Field.ext (String.toList_inj.mp ?_) ?_
  · rw [(entryField_eq name e).1, (entryField_eq name e').1, same]
  · rw [(entryField_eq name e).2, (entryField_eq name e').2, contents]

theorem named_of_mem_contents {t : Tree} (proper : t.Proper) (distinct : t.Distinct) {l : Location}
    {e : Location × Node} (mem : e ∈ t.contents l) :
    e.1 ≠ [] ∧ ∀ name ∈ e.1, IsName name := by
  obtain ⟨rest, n⟩ := e
  obtain ⟨filled, found⟩ := (Tree.mem_contents_iff distinct).mp mem
  refine ⟨filled, fun name mem => ?_⟩
  obtain ⟨before, after, rfl⟩ := List.append_of_mem mem
  have way : l ++ (before ++ name :: after) = (l ++ before ++ [name]) ++ after := by simp
  rw [way] at found
  refine proper.named (l ++ before) name ?_
  by_cases last : after = []
  · simpa [last] using Option.isSome_of_eq_some found
  · have above := proper.closed.dir_above last (Option.isSome_of_eq_some found)
    exact Option.isSome_of_eq_some above

/-- The fields of two directories are the same just where a reader finds the same in them, or
where both are missing. -/
theorem dirFields_eq_iff (proper : w.files.Proper) (proper' : w'.files.Proper)
    (distinct : w.files.Distinct) (distinct' : w'.files.Distinct) :
    dirFields w name path = dirFields w' name path' ↔ w.treeAt path = w'.treeAt path' := by
  have apart (entries : List (Location × Node)) :
      [Field.ofText name "<absent>"] ≠ treeFields name entries := by
    intro same
    have data := congrArg Field.data (List.cons.inj same).1
    exact absurd (Text.Utf8.bytes_inj data) (by decide)
  obtain ⟨none, whole⟩ | ⟨l, dir, some, whole⟩ := dirFields_cases w name path <;>
    obtain ⟨none', whole'⟩ | ⟨l', dir', some', whole'⟩ := dirFields_cases w' name path'
  · simp [whole, whole', none, none']
  · simp [whole, whole', none, some', apart]
  · simp [whole, whole', some, none', (apart _).symm]
  rw [whole, whole', some, some', Option.some.injEq,
    ← Tree.map_entry_contents_eq_iff distinct distinct' dir dir', treeFields, treeFields,
    List.cons_eq_cons, and_iff_right rfl]
  constructor
  · refine map_eq_of_map_eq fun e mem e' mem' same => ?_
    obtain ⟨filled, named⟩ := named_of_mem_contents proper distinct mem
    obtain ⟨filled', named'⟩ := named_of_mem_contents proper' distinct' mem'
    exact entryField_inj filled filled' named named' same
  · exact map_eq_of_map_eq fun _ _ _ _ => entryField_congr

end Stage

end BoardDesign
