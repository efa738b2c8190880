import BoardDesign.Digest.ContentHash
import BoardDesign.File.World
import BoardDesign.Stage.Error
/-!
What a stage depends on, and the digest of it.

The inputs are named fields. Each part of a field is written after its length, so bytes that move
from one field to another one always change what is digested: `measured_inj` says that a part can
be told from what follows it.
-/

namespace BoardDesign.Stage

structure Field where
  name : String
  data : List UInt8
deriving DecidableEq, Repr

/-- A part of a field after its length. -/
def measured (part : List UInt8) : List UInt8 := Digest.littleEndian 8 part.length ++ part

def Field.bytes (f : Field) : List UInt8 := measured (Text.Utf8.bytes f.name) ++ measured f.data

def Field.ofText (name text : String) : Field := ⟨name, Text.Utf8.bytes text⟩

/-- The fields of a stage, the newest last. -/
structure Inputs where
  fields : List Field
deriving DecidableEq, Repr

namespace Inputs

def ofStage (s : Stage) : Inputs := ⟨[Field.ofText "stage" s.id]⟩

def add (i : Inputs) (fields : List Field) : Inputs := ⟨i.fields ++ fields⟩

def text (i : Inputs) (name text : String) : Inputs := i.add [Field.ofText name text]

def bytes (i : Inputs) : List UInt8 := i.fields.flatMap Field.bytes

def hash (i : Inputs) : ContentHash := ContentHash.ofBytes i.bytes

end Inputs

/-- The field of a file or directory below one that is named `name`. -/
def entryField (name : String) (e : File.Location × File.Node) : Field :=
  let path := name ++ "/" ++ Text.joinWith "/" e.1
  match e.2 with
  | .dir => ⟨path ++ "/", []⟩
  | .file content _ => ⟨path, content⟩

/-- The fields of a directory tree: one that tells that it is there, and one for each directory
and file in it. -/
def treeFields (name : String) (contents : List (File.Location × File.Node)) : List Field :=
  Field.ofText name "<dir>" :: contents.map (entryField name)

/-- The fields of what lies at a path, if it is a directory. -/
def dirFields (w : World) (name path : String) : List Field :=
  match w.locate path with
  | .ok l =>
    if w.isDirAt l then treeFields name (w.files.contents l)
    else [Field.ofText name "<absent>"]
  | .error _ => [Field.ofText name "<absent>"]

namespace Inputs

/-- A directory tree as an input; one that is missing is an input too. -/
def dir (i : Inputs) (name path : String) : Action Error Inputs :=
  Action.ask fun w => i.add (dirFields w name path)

def file (i : Inputs) (name path : String) : Action Error Inputs := do
  let data ← (Action.readBytes path).mapError (.file path)
  return i.add [⟨name, data⟩]

end Inputs

/-! What follows the length of a part tells where the part ends. -/

def ofLittleEndian : List UInt8 → Nat
  | [] => 0
  | b :: rest => b.toNat + 256 * ofLittleEndian rest

theorem ofLittleEndian_littleEndian (n x : Nat) (h : x < Nat.pow 256 n) :
    ofLittleEndian (Digest.littleEndian n x) = x := by
  induction n generalizing x with
  | zero =>
    have none : x = 0 := Nat.lt_one_iff.mp h
    simp [Digest.littleEndian, ofLittleEndian, none]
  | succ n ih =>
    have rest : x / 256 < Nat.pow 256 n := Nat.div_lt_of_lt_mul (Nat.mul_comm .. ▸ h)
    simp only [Digest.littleEndian, ofLittleEndian, ih _ rest, UInt8.toNat_ofNat']
    omega

theorem measured_inj {a b r s : List UInt8} (ha : a.length < Nat.pow 2 64)
    (hb : b.length < Nat.pow 2 64) (h : measured a ++ r = measured b ++ s) : a = b ∧ r = s := by
  simp only [measured, List.append_assoc] at h
  obtain ⟨hl, ht⟩ := List.append_inj h (by simp)
  have hlen : a.length = b.length := by
    have := congrArg ofLittleEndian hl
    rwa [ofLittleEndian_littleEndian _ _ ha, ofLittleEndian_littleEndian _ _ hb] at this
  exact List.append_inj ht hlen

end BoardDesign.Stage
