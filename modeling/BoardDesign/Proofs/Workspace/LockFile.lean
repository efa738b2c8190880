import BoardDesign.Proofs.File.Name
import BoardDesign.Proofs.File.Place
import BoardDesign.Proofs.Json.ReadBack
import BoardDesign.Proofs.Text.Utf8
import BoardDesign.Workspace.Lock

/-!
# The files of a lock

A lock has its file, and each holder has a private file that it writes before.

* `Lock.Named`: what the name of a lock file is like; `Lock.privateName`: that of a private file;
* `Lock.privatePlace_ne_place`, `Lock.privatePlace_inj`: they are not the same ones;
* `Holder.ofBytes?_bytes`: a holder is read back from its file;
* `Lock.named?_keeps`: a lock file goes on to name its holder as long as nobody touches it.
-/

namespace BoardDesign.Workspace

open File File.Path

/-- The holder that the content of a lock file names. -/
def Holder.ofBytes? (content : List UInt8) : Option Holder :=
  (Text.Utf8.text? content).bind fun text => (Json.parse text).bind Holder.ofJson?

theorem natBelow?_of_lt {bound n : Nat} (h : n < bound) :
    Json.natBelow? bound (.int n) = some n := by
  simp [Json.natBelow?, h]

theorem Holder.ofJson?_toJson {h : Holder} (small : h.pid < Nat.pow 2 32) :
    Holder.ofJson? h.toJson = some h := by
  have fields : Json.Fields.orList? known h.toJson =
      some [("pid", .int h.pid), ("stage", .str h.stage), ("token", .str h.token)] := rfl
  have pid : findEntry "pid" [("pid", Json.int h.pid), ("stage", .str h.stage),
      ("token", .str h.token)] = some (.int h.pid) := rfl
  rw [Holder.ofJson?, fields, Option.bind_eq_bind, Option.bind_some, Json.Fields.required, pid,
    Option.bind_some, natBelow?_of_lt small]
  rfl

/-- A holder is read back from its file. -/
theorem Holder.ofBytes?_bytes {h : Holder} (small : h.pid < Nat.pow 2 32) :
    Holder.ofBytes? h.bytes = some h := by
  have wide : Nat.pow 2 32 < Nat.pow 2 63 := by decide
  have wide' : Nat.pow 2 63 < Nat.pow 2 64 := by decide
  have fits : Json.Fits Json.depthLimit h.toJson :=
    ⟨by decide, ⟨by omega, by omega⟩, trivial, trivial, trivial⟩
  rw [Holder.ofBytes?, Holder.bytes, Text.Utf8.text?_bytes, Option.bind_some,
    Json.parse_compact fits, Option.bind_some, Holder.ofJson?_toJson small]

/-! ## Places -/

namespace Lock

/-- What the last name of the path of a lock file is like. -/
structure Named (path name : String) : Prop where
  pieces : ∃ before, Text.pieces '/' path.toList = before ++ [name.toList]
  ends : name.toList.getLast? = some 'k'
  noSlash : '/' ∉ name.toList

theorem exists_named (locksDir board : String) : ∃ name, Named (pathFor locksDir board) name := by
  obtain ⟨front, _, whole⟩ := toList_join locksDir (board ++ ".lock")
  have ending : '/' ∉ ".lock".toList := by decide
  obtain ⟨before, last, _, parts⟩ := Text.pieces_append (front ++ board.toList) ending
  have named : Text.pieces '/' (pathFor locksDir board).toList =
      before ++ [last ++ ".lock".toList] := by
    rw [pathFor, whole, String.toList_append, ← List.append_assoc, parts]
  refine ⟨String.ofList (last ++ ".lock".toList), ⟨before, ?_⟩, ?_, ?_⟩
  · rw [String.toList_ofList, named]
  · rw [String.toList_ofList, List.getLast?_append]
    rfl
  · rw [String.toList_ofList]
    exact Text.not_mem_of_mem_pieces (by rw [named]; simp)

/-- The name of a private file. -/
def privateName (name token : String) : String := "." ++ name ++ "." ++ token

theorem privateName_toList (name token : String) :
    (privateName name token).toList = '.' :: (name.toList ++ '.' :: token.toList) := by
  simp [privateName]

namespace Named

variable {path name token : String} (named : Named path name)
include named

theorem proper : name.toList ≠ [] ∧ name.toList ≠ ['.'] ∧ name.toList ≠ ['.', '.'] := by
  refine ⟨?_, ?_, ?_⟩ <;> intro same <;> have ends := named.ends <;> rw [same] at ends <;>
    simp at ends

theorem privatePath_eq : privatePath path token = join ((parent? path).getD path)
    (privateName name token) := by
  obtain ⟨before, parts⟩ := named.pieces
  have found := fileName?_of_pieces parts named.proper
  rw [String.ofList_toList] at found
  rw [privatePath, withFileName, found]
  rfl

theorem pieces_privatePath (noSlash : '/' ∉ token.toList) :
    ∃ before, Text.pieces '/' (privatePath path token).toList =
      before ++ [(privateName name token).toList] := by
  rw [named.privatePath_eq]
  refine pieces_join _ ?_
  simp [privateName_toList, named.noSlash, noSlash]

theorem exists_names : ∃ before, World.names path = before ++ [name] := by
  obtain ⟨_, parts⟩ := named.pieces
  simpa using World.names_of_pieces parts named.proper.1

theorem exists_names_privatePath (noSlash : '/' ∉ token.toList) :
    ∃ before, World.names (privatePath path token) = before ++ [privateName name token] := by
  obtain ⟨_, parts⟩ := named.pieces_privatePath noSlash
  simpa using World.names_of_pieces parts (by simp [privateName_toList])

theorem name_eq {w : World} {l : Location} {other : String} (leads : w.Leads path l other) :
    other = name := by
  obtain ⟨_, _, _, whole, _⟩ := leads.way
  obtain ⟨_, whole'⟩ := named.exists_names
  exact List.singleton_injective (List.append_inj' (whole.symm.trans whole') rfl).2

theorem endsWithSlash : World.endsWithSlash path = false := by
  obtain ⟨_, parts⟩ := named.pieces
  exact World.endsWithSlash_of_pieces parts named.proper.1

theorem endsWithSlash_privatePath (noSlash : '/' ∉ token.toList) :
    World.endsWithSlash (privatePath path token) = false := by
  obtain ⟨_, parts⟩ := named.pieces_privatePath noSlash
  exact World.endsWithSlash_of_pieces parts (by simp [privateName_toList])

theorem no_dots : name ≠ "." ∧ name ≠ ".." := by
  refine ⟨?_, ?_⟩ <;> rintro rfl
  · exact named.proper.2.1 rfl
  · exact named.proper.2.2 rfl

omit named in
theorem privateName_no_dots (name : String) {token : String} (filled : token.toList ≠ []) :
    privateName name token ≠ "." ∧ privateName name token ≠ ".." := by
  have long : 3 ≤ (privateName name token).toList.length := by
    have some' := List.length_pos_iff.mpr filled
    simp only [privateName_toList, List.length_cons, List.length_append]
    omega
  refine ⟨?_, ?_⟩ <;> intro same <;> rw [same] at long <;> revert long <;> decide

end Named

/-- Where the private file of the holder with the `n`-th token lies. -/
def privatePlace (path : String) (w : World) (n : Nat) : Location :=
  w.placeOf (privatePath path (World.tokenText n))

/-- The holder that a lock file names. -/
def named? (path : String) (w : World) : Option Holder :=
  (w.bytesAt path).toOption.bind Holder.ofBytes?

section Places

variable {path name : String} {w w' : World} (named : Named path name)
include named

theorem exists_privatePlace (w : World) (n : Nat) :
    ∃ l, privatePlace path w n = l ++ [privateName name (World.tokenText n)] := by
  obtain ⟨before, whole⟩ := named.exists_names_privatePath (World.not_mem_tokenText (.inl rfl))
  exact World.placeOf_of_names whole (Named.privateName_no_dots name (World.tokenText_ne_nil n))

theorem exists_place (w : World) : ∃ l, w.placeOf path = l ++ [name] := by
  obtain ⟨before, whole⟩ := named.exists_names
  exact World.placeOf_of_names whole named.no_dots

/-- The name of a lock file has another end than a token. -/
theorem privatePlace_ne_place (n : Nat) : privatePlace path w n ≠ w.placeOf path := by
  intro same
  obtain ⟨l, private'⟩ := exists_privatePlace named w n
  obtain ⟨m, public'⟩ := exists_place named w
  rw [private', public'] at same
  have names := List.singleton_injective (List.append_inj' same rfl).2
  obtain ⟨init, ends⟩ := List.getLast?_eq_some_iff.mp named.ends
  obtain ⟨digits, last, token⟩ :=
    (List.eq_nil_or_concat' (World.tokenText n).toList).resolve_left (World.tokenText_ne_nil n)
  have whole : ('.' :: (name.toList ++ '.' :: digits)) ++ [last] = init ++ ['k'] := by
    rw [← ends]
    conv_rhs => rw [← names]
    simp [privateName_toList, token]
  have mem : 'k' ∈ (World.tokenText n).toList := by
    rw [token, List.singleton_injective (List.append_inj' whole rfl).2]
    simp
  exact World.not_mem_tokenText (.inr rfl) mem

theorem privatePlace_inj {m n : Nat} (same : privatePlace path w m = privatePlace path w n) :
    m = n := by
  obtain ⟨l, first⟩ := exists_privatePlace named w m
  obtain ⟨k, second⟩ := exists_privatePlace named w n
  rw [first, second] at same
  have names := congrArg String.toList (List.singleton_injective (List.append_inj' same rfl).2)
  rw [privateName_toList, privateName_toList] at names
  have tokens := List.append_cancel_left (List.cons.inj names).2
  exact World.tokenText_inj (String.toList_inj.mp (List.cons.inj tokens).2)

/-- The file that names a holder. -/
theorem exists_file_of_named? {h : Holder} (names : named? path w = some h) :
    ∃ l content executable, w.Leads path l name ∧
      w.files.find? (l ++ [name]) = some (.file content executable) ∧
      Holder.ofBytes? content = some h := by
  obtain ⟨before, whole⟩ := named.exists_names
  cases read : w.bytesAt path with
  | error e => simp [named?, read, Except.toOption] at names
  | ok content =>
    cases node : w.nodeAt path with
    | error e => simp [World.bytesAt, node, bind, Except.bind] at read
    | ok n =>
      cases n with
      | dir => simp [World.bytesAt, node, bind, Except.bind] at read
      | file content' executable =>
        simp only [World.bytesAt, node, bind, Except.bind, Except.ok.injEq] at read
        subst read
        obtain ⟨m, located, there⟩ := World.nodeAt_eq_ok node
        obtain ⟨l, leads, rfl, found⟩ := World.leads_of_locate located whole named.no_dots
        obtain ⟨n, isNode⟩ := Option.isSome_iff_exists.mp found
        rw [isNode, Option.getD_some] at there
        refine ⟨l, content', executable, leads, by rw [isNode, ← there], ?_⟩
        simpa [named?, World.bytesAt, node, bind, Except.bind, Except.toOption] using names

theorem named?_of_file {l : Location} {content : List UInt8} {executable : Bool}
    (leads : w.Leads path l name)
    (file : w.files.find? (l ++ [name]) = some (.file content executable)) :
    named? path w = Holder.ofBytes? content := by
  rw [named?, leads.bytesAt named.endsWithSlash file]
  rfl

theorem named?_of_free {l : Location} (leads : w.Leads path l name)
    (free : w.files.find? (l ++ [name]) = none) : named? path w = none := by
  rw [named?, leads.bytesAt_of_free named.endsWithSlash free]
  rfl

/-- A lock file names its holder as long as nobody touches it. -/
theorem named?_keeps {h : Holder} (keeps : w.Keeps w')
    (same : w'.files.find? (w.placeOf path) = w.files.find? (w.placeOf path))
    (names : named? path w = some h) : named? path w' = some h := by
  obtain ⟨l, content, executable, leads, file, holder⟩ := exists_file_of_named? named names
  rw [leads.placeOf] at same
  rw [named?_of_file named (keeps.leads leads) (same.trans file), holder]

end Places

end Lock

end BoardDesign.Workspace
