import BoardDesign.Board.Devicetree
import BoardDesign.Proofs.Graph.Views
import BoardDesign.Proofs.Template.Directives
import BoardDesign.Proofs.Text.Hex

/-!
# How addresses are written, and where they come from

* `IsLiteral`: hexadecimal literals of 64 bits; `parse_eq_some_iff`: they are read, with a plus sign
  before the digits or without, and nothing else is;
* `parse_hex`: what an overlay prints is read back;
* `NodeView.First`: the property that is read for an interface (`interfaceAddress_eq_some_iff`);
* `NodeView.interfaceAddress_iff_own`: when that gives what the property that is named after the
  interface holds; `NodeView.Plain`: when it is that property;
* `signed_address_is_read`, `other_property_is_read`: a text with a sign, and a property that has
  the name of another one in its own.
-/

namespace BoardDesign.Graph

open Text Text.Hex

/-- The property of an interface for addresses. -/
def addressKey (interface : String) : String := "address (" ++ interface ++ ")"

/-- A thermometer with its address, and with another property for addresses. -/
def thermometerTypes (other : String) : EffectiveCatalog :=
  let address (name value : String) : Property := ⟨name, .hex, some (.str value), [], .empty⟩
  let type : NodeType := ⟨"TMP", none, [address "address (i2c)" "0x48", address other "0x10"], [],
    false, false, [], .empty, some (.obj [("compats", .arr [.str "ti,tmp108"])]), .empty⟩
  ⟨⟨.empty, [type], .empty⟩, Table.ofList [("TMP", type)]⟩

/-- A board with nothing but the thermometer. -/
def thermometer : Design :=
  (Design.empty.addNode "TMP" "tmp").1.setProperty 0 "address (i2c)" (.str "0x49")

def thermometerBoard (other : String) : ValidDesign :=
  ⟨thermometer, thermometerTypes other, viewsFrom (thermometerTypes other) 0 thermometer.nodes,
    none⟩

namespace Address

/-! ## What is read as an address -/

variable {s : String} {v : Nat} {cs ds : List Char}

/-- What may stand before the digits of an address. -/
def marks : List (List Char) := [[], ['0', 'x'], ['0', 'X']]

/-- A hexadecimal literal of 64 bits with the given sign before its digits, if any, and white space
around it. -/
def IsLiteral (sign : List Char) (s : String) (v : Nat) : Prop :=
  ∃ before mark ds after, s.toList = before ++ (mark ++ sign ++ ds) ++ after ∧ Blanks before ∧
    Blanks after ∧ mark ∈ marks ∧ ds ≠ [] ∧ Writes ds v ∧ v < 2 ^ 64

theorem isDigit_of_writes (h : Writes ds v) : ∀ c ∈ ds, (value? c).isSome := by
  have read := toNat?_eq_some_iff.mpr h
  exact isSome_value?_of_go read

def signs : List (List Char) := [[], ['+']]

/-- A sign before digits is passed over. -/
def unsigned (cs : List Char) : List Char :=
  match cs with
  | '+' :: rest => rest
  | rest => rest

theorem ofDigits?_eq_some_iff_unsigned :
    ofDigits? cs = some v ↔ unsigned cs ≠ [] ∧ Writes (unsigned cs) v ∧ v < 2 ^ 64 := by
  have whole : ofDigits? cs = if (unsigned cs).isEmpty then none else
      (toNat? (unsigned cs)).bind fun n => if n < Nat.pow 2 64 then some n else none := rfl
  rw [whole]
  cases unsigned cs with
  | nil => simp
  | cons c rest =>
    simp only [List.isEmpty_cons, Bool.false_eq_true, if_false, Option.bind_eq_some_iff,
      toNat?_eq_some_iff, Option.ite_none_right_eq_some, Option.some.injEq]
    constructor
    · rintro ⟨n, writes, small, rfl⟩
      exact ⟨nofun, writes, small⟩
    · rintro ⟨-, writes, small⟩
      exact ⟨v, writes, small, rfl⟩

theorem unsigned_of_writes (h : Writes ds v) : unsigned ds = ds := by
  unfold unsigned
  split
  · exact absurd (isDigit_of_writes h '+' (.head _)) (by decide)
  · rfl

theorem exists_sign (cs : List Char) : ∃ sign ∈ signs, cs = sign ++ unsigned cs := by
  unfold unsigned
  split
  · exact ⟨['+'], by decide, rfl⟩
  · exact ⟨[], by decide, rfl⟩

theorem ofDigits?_eq_some_iff : ofDigits? cs = some v ↔
    ∃ sign ∈ signs, ∃ ds, cs = sign ++ ds ∧ ds ≠ [] ∧ Writes ds v ∧ v < 2 ^ 64 := by
  rw [ofDigits?_eq_some_iff_unsigned]
  constructor
  · rintro ⟨some, writes, small⟩
    obtain ⟨sign, isSign, signed⟩ := exists_sign cs
    exact ⟨sign, isSign, unsigned cs, signed, some, writes, small⟩
  · rintro ⟨sign, mem, ds, rfl, some, writes, small⟩
    have same : unsigned (sign ++ ds) = ds := by
      simp only [signs, List.mem_cons, List.not_mem_nil, or_false] at mem
      obtain rfl | rfl := mem
      · exact unsigned_of_writes writes
      · rfl
    rw [same]
    exact ⟨some, writes, small⟩

theorem exists_mark (cs : List Char) : ∃ mark ∈ marks, cs = mark ++ digits cs := by
  unfold digits
  split
  · exact ⟨['0', 'x'], by decide, rfl⟩
  · exact ⟨['0', 'X'], by decide, rfl⟩
  · exact ⟨[], by decide, rfl⟩

/-- Neither a sign nor digits are taken for a mark. -/
theorem digits_append {mark sign : List Char} (isMark : mark ∈ marks) (isSign : sign ∈ signs)
    (h : Writes ds v) : digits (mark ++ (sign ++ ds)) = sign ++ ds := by
  simp only [marks, signs, List.mem_cons, List.not_mem_nil, or_false] at isMark isSign
  obtain rfl | rfl | rfl := isMark
  · obtain rfl | rfl := isSign
    · rw [List.nil_append, List.nil_append]
      unfold digits
      split
      · exact absurd (isDigit_of_writes h 'x' (.tail _ (.head _))) (by decide)
      · exact absurd (isDigit_of_writes h 'X' (.tail _ (.head _))) (by decide)
      · rfl
    · rfl
  · rfl
  · rfl

/-- The test of a list is computed; to decide the statement could go through all characters. -/
theorem not_isBlank_of_all {cs : List Char} (visible : cs.all fun c => !isBlank c) {c : Char}
    (mem : c ∈ cs) : isBlank c = false := by
  simpa using List.all_eq_true.mp visible c mem

theorem isBlank_of_isDigit {c : Char} (h : (value? c).isSome) : isBlank c = false := by
  have visible : (lowerDigits ++ upperDigits).all fun d => !isBlank d := by decide
  obtain ⟨n, value⟩ := Option.isSome_iff_exists.mp h
  refine not_isBlank_of_all visible (List.mem_append.mpr ?_)
  rcases value?_eq_some_iff.mp value with found | found
  · exact .inl (List.mem_of_getElem? found)
  · exact .inr (List.mem_of_getElem? found)

/-- A text is read as an address just if it is a literal; a plus sign may stand before the digits,
behind the mark. -/
theorem parse_eq_some_iff : parse s = some v ↔ ∃ sign ∈ signs, IsLiteral sign s v := by
  rw [parse, ofDigits?_eq_some_iff]
  constructor
  · rintro ⟨sign, isSign, ds, split, some, writes, small⟩
    obtain ⟨before, after, blank, blankAfter, whole⟩ := exists_blanks_trim s.toList
    obtain ⟨mark, isMark, marked⟩ := exists_mark (trim s.toList)
    rw [marked, split, ← List.append_assoc mark] at whole
    exact ⟨sign, isSign, before, mark, ds, after, whole, blank, blankAfter, isMark, some, writes,
      small⟩
  · rintro ⟨sign, isSign, before, mark, ds, after, whole, blank, blankAfter, isMark, some, writes,
      small⟩
    have visible : ∀ c ∈ mark ++ sign ++ ds, isBlank c = false := by
      have digit : ∀ c ∈ ds, isBlank c = false := fun c mem =>
        isBlank_of_isDigit (isDigit_of_writes writes c mem)
      have marks_visible : ∀ m ∈ marks, m.all fun c => !isBlank c := by decide
      have signs_visible : ∀ m ∈ signs, m.all fun c => !isBlank c := by decide
      intro c mem
      rcases List.mem_append.mp mem with mem | mem
      · exact (List.mem_append.mp mem).elim (not_isBlank_of_all (marks_visible mark isMark))
          (not_isBlank_of_all (signs_visible sign isSign))
      · exact digit c mem
    have core : trim s.toList = mark ++ sign ++ ds := by
      rw [whole]
      refine trim_append blank blankAfter (fun c first => visible c ?_) fun c last => visible c ?_
      · exact List.mem_of_head? first
      · exact List.mem_of_getLast? last
    refine ⟨sign, isSign, ds, ?_, some, writes, small⟩
    rw [core, List.append_assoc, digits_append isMark isSign writes]

/-! ## What is written is read back -/

theorem writes_ofNat (n : Nat) : Writes (ofNat n) n := toNat?_eq_some_iff.mp (toNat?_ofNat n)

theorem ofNat_ne_nil (n : Nat) : ofNat n ≠ [] := by
  unfold ofNat
  cases n with
  | zero => exact List.cons_ne_nil _ _
  | succ n =>
    rw [ofNat.go]
    split
    · exact List.cons_ne_nil _ _
    · simp

/-- Numbers are written in lower-case digits. -/
theorem mem_lowerDigits_of_mem {n : Nat} {c : Char} (mem : c ∈ ofNat n) : c ∈ lowerDigits := by
  have all : ∀ k : Fin 16, digit k.val ∈ lowerDigits := by decide
  obtain ⟨k, small, rfl⟩ := exists_digit_of_mem mem
  exact all ⟨k, small⟩

/-- An address that an overlay prints is read back, with the mark before it and without. -/
theorem parse_hex (mark : String) (isMark : mark.toList ∈ marks) {a : Nat} (small : a < 2 ^ 64) :
    parse (mark ++ Board.Overlay.hex a) = some a := by
  refine parse_eq_some_iff.mpr ⟨[], by decide, [], mark.toList, ofNat a, [], ?_, nofun, nofun,
    isMark, ofNat_ne_nil a, writes_ofNat a, small⟩
  simp [Board.Overlay.hex]

/-- A property of the type for addresses has such a text as its value. -/
theorem accepts_iff {p : Property} (hex : p.kind = .hex) {value : Json} :
    p.accepts value = true ↔ ∃ s v, value = .str s ∧ ∃ sign ∈ signs, IsLiteral sign s v := by
  unfold Property.accepts
  rw [hex]
  cases value with
  | str s =>
    simp only [Option.isSome_iff_exists, parse_eq_some_iff, Json.str.injEq]
    constructor
    · rintro ⟨v, literal⟩
      exact ⟨s, v, rfl, literal⟩
    · rintro ⟨_, v, rfl, literal⟩
      exact ⟨v, literal⟩
  | _ => simp

/-- No literal without a sign has a plus sign anywhere. -/
theorem IsLiteral.plus_notMem (h : IsLiteral [] s v) : '+' ∉ s.toList := by
  obtain ⟨before, mark, ds, after, whole, blank, blankAfter, isMark, -, writes, -⟩ := h
  have marks_unsigned : ∀ m ∈ marks, '+' ∉ m := by decide
  rw [whole]
  simp only [List.append_nil, List.mem_append]
  rintro ((mem | mem | mem) | mem)
  · exact absurd (blank '+' mem) (by decide)
  · exact marks_unsigned mark isMark mem
  · exact absurd (isDigit_of_writes writes '+' mem) (by decide)
  · exact absurd (blankAfter '+' mem) (by decide)

theorem IsLiteral.plus_mem (h : IsLiteral ['+'] s v) : '+' ∈ s.toList := by
  obtain ⟨before, mark, ds, after, whole, -⟩ := h
  rw [whole]
  simp

/-- Just literals without a sign are read, but for texts with a plus sign. -/
theorem parse_iff_unsigned :
    (∀ v, parse s = some v ↔ IsLiteral [] s v) ↔ ('+' ∈ s.toList → parse s = none) := by
  constructor
  · intro claim plus
    refine Option.eq_none_iff_forall_ne_some.mpr fun v read => ?_
    exact ((claim v).mp read).plus_notMem plus
  · intro unread v
    rw [parse_eq_some_iff]
    constructor
    · rintro ⟨sign, isSign, literal⟩
      simp only [signs, List.mem_cons, List.not_mem_nil, or_false] at isSign
      obtain rfl | rfl := isSign
      · exact literal
      · have read := parse_eq_some_iff.mpr ⟨['+'], by decide, literal⟩
        rw [unread literal.plus_mem] at read
        cases read
    · exact fun literal => ⟨[], by decide, literal⟩

/-- A text is read as an address just if it is a hexadecimal literal of 64 bits, which may have a
plus sign before its digits: so just if it is a literal without a sign, but for texts with a plus
sign that are read. The addresses that an overlay prints are read back, and a value passes for an
address in a valid design just if it is such a text. -/
theorem parse_reads_literals (s : String) :
    (∀ v, parse s = some v ↔ ∃ sign ∈ signs, IsLiteral sign s v) ∧
    ((∀ v, parse s = some v ↔ IsLiteral [] s v) ↔ ('+' ∈ s.toList → parse s = none)) ∧
    (∀ a, a < 2 ^ 64 → (∀ c ∈ (Board.Overlay.hex a).toList, c ∈ lowerDigits) ∧
      parse (Board.Overlay.hex a) = some a ∧ parse ("0x" ++ Board.Overlay.hex a) = some a) ∧
    (∀ p : Property, p.kind = .hex → ∀ value, p.accepts value = true ↔
      ∃ s v, value = .str s ∧ ∃ sign ∈ signs, IsLiteral sign s v) ∧
    ∀ d c g, validate d c = .ok g → ∀ n ∈ d.nodes, ∀ t, c.get? n.typeName = some t →
      ∀ name p, t.property? name = some p → p.kind = .hex →
        ∀ value, n.properties.get? name = some value → value ≠ .null →
          ∃ s v, value = .str s ∧ ∃ sign ∈ signs, IsLiteral sign s v := by
  refine ⟨fun v => parse_eq_some_iff, parse_iff_unsigned, fun a small => ⟨fun c mem => ?_, ?_, ?_⟩,
    fun p hex value => accepts_iff hex, ?_⟩
  · rw [Board.Overlay.hex, String.toList_ofList] at mem
    exact mem_lowerDigits_of_mem mem
  · simpa using parse_hex "" (by decide) small
  · exact parse_hex "0x" (by decide) small
  · intro d c g valid n mem t known name p declared hex value given notNull
    obtain ⟨p', declared', fits⟩ :=
      (validate_eq_ok_iff.mp valid).1.properties n mem t known name value given
    obtain rfl := Option.some.inj (declared.symm.trans declared')
    exact (accepts_iff hex).mp (fits notNull)

/-- An address that is printed, and that of a thermometer. -/
theorem parse_reads_literals_thermometer :
    IsLiteral [] "0x48" 0x48 ∧ parse ("0x" ++ Board.Overlay.hex 0x48) = some 0x48 ∧
    (Property.mk "address (i2c)" .hex none [] .empty).accepts (.str "0x48") = true ∧
    ∃ s v, Json.str "0x49" = .str s ∧ ∃ sign ∈ signs, IsLiteral sign s v := by
  obtain ⟨reads, unsigned, prints, accepts, valid⟩ := parse_reads_literals "0x48"
  refine ⟨(unsigned.mpr (by decide) 0x48).mp (by decide), (prints 0x48 (by decide)).2.2, ?_, ?_⟩
  · exact (accepts _ rfl _).mpr ⟨"0x48", 0x48, rfl, (reads 0x48).mp (by decide)⟩
  · exact valid thermometer (thermometerTypes "address (gpio)") (thermometerBoard "address (gpio)")
      (by decide) _ (.head _) _ rfl "address (i2c)" _ rfl rfl (.str "0x49") (by decide) nofun

/-- A sign is read, which no literal has. -/
theorem signed_address_is_read : ¬ ∀ s v, parse s = some v ↔ IsLiteral [] s v := by
  intro claim
  exact ((claim "+48" 72).mp (by decide)).plus_notMem (by decide)

end Address

/-! ## Which property is read -/

/-- The name of a property has that of an interface's property in it. -/
def Mentions (interface name : String) : Prop := (addressKey interface).toList <:+: name.toList

namespace NodeView

variable {v : NodeView} {f g name : String} {a : Nat}

/-- The first property, in the order of the names, that mentions the interface. -/
structure First (v : NodeView) (f name : String) : Prop where
  there : v.properties.contains name = true
  mentions : Mentions f name
  least : ∀ other, v.properties.contains other = true → Mentions f other → ¬ other < name

/-- The property holds the address. -/
def Holds (v : NodeView) (name : String) (a : Nat) : Prop :=
  ∃ s, v.properties.get? name = some (.str s) ∧ Address.parse s = some a

theorem Holds.there (h : v.Holds name a) : v.properties.contains name = true := by
  obtain ⟨s, found, -⟩ := h
  rw [Table.contains, found]
  rfl

theorem mentions_self (f : String) : Mentions f (addressKey f) := List.infix_rfl

theorem First.unique (h : v.First f name) {other : String} (h' : v.First f other) :
    name = other := by
  rcases Std.lt_trichotomy name other with less | same | less
  · exact absurd less (h'.least name h.there h.mentions)
  · exact same
  · exact absurd less (h.least other h'.there h'.mentions)

/-- The entry that is taken for an interface. -/
def pick? (v : NodeView) (f : String) : Option (String × Json) :=
  v.properties.toList.find? fun e => Text.occurs (addressKey f).toList e.1.toList

theorem pick?_eq_some_iff {value : Json} : v.pick? f = some (name, value) ↔
    v.First f name ∧ v.properties.get? name = some value := by
  rw [pick?, Table.find?_toList_eq_some_iff
    (p := fun name => Text.occurs (addressKey f).toList name.toList)]
  simp only [Text.occurs_iff]
  constructor
  · rintro ⟨found, mentions, least⟩
    exact ⟨⟨by rw [Table.contains, found]; rfl, mentions, least⟩, found⟩
  · rintro ⟨⟨-, mentions, least⟩, found⟩
    exact ⟨found, mentions, least⟩

/-- If a property mentions the interface, some property is the first one that does. -/
theorem exists_first (there : v.properties.contains name = true) (mentions : Mentions f name) :
    ∃ first, v.First f first := by
  obtain ⟨value, found⟩ := Option.isSome_iff_exists.mp there
  have taken : (v.pick? f).isSome :=
    List.find?_isSome.mpr ⟨(name, value), Table.mem_toList_iff.mpr found,
      Text.occurs_iff.mpr mentions⟩
  obtain ⟨⟨first, value'⟩, taken⟩ := Option.isSome_iff_exists.mp taken
  exact ⟨first, (pick?_eq_some_iff.mp taken).1⟩

theorem interfaceAddress_eq_some_iff :
    v.interfaceAddress f = some a ↔ ∃ name, v.First f name ∧ v.Holds name a := by
  constructor
  · intro read
    simp only [interfaceAddress] at read
    split at read
    · rename_i name s taken
      obtain ⟨first, found⟩ := (pick?_eq_some_iff (f := f)).mp taken
      exact ⟨name, first, s, found, read⟩
    · cases read
  · rintro ⟨name, first, s, found, parsed⟩
    have taken := pick?_eq_some_iff.mpr ⟨first, found⟩
    rw [pick?, addressKey] at taken
    rw [interfaceAddress, taken]
    exact parsed

/-- The address is that of the interface's own property just if the first property holds the
same. -/
theorem interfaceAddress_iff_own :
    (∀ a, v.interfaceAddress f = some a ↔ v.Holds (addressKey f) a) ↔
      ∀ name, v.First f name → ∀ a, v.Holds name a ↔ v.Holds (addressKey f) a := by
  constructor
  · intro claim name first a
    rw [← claim, interfaceAddress_eq_some_iff]
    constructor
    · exact fun holds => ⟨name, first, holds⟩
    · rintro ⟨other, first', holds⟩
      exact first.unique first' ▸ holds
  · intro alike a
    rw [interfaceAddress_eq_some_iff]
    constructor
    · rintro ⟨name, first, holds⟩
      exact (alike name first a).mp holds
    · intro holds
      obtain ⟨name, first⟩ := exists_first holds.there (mentions_self f)
      exact ⟨name, first, (alike name first a).mpr holds⟩

/-- Between interfaces without parentheses in their names there is no mistake. -/
theorem mentions_addressKey_iff (noOpen : '(' ∉ g.toList) (noClose : ')' ∉ g.toList) :
    Mentions f (addressKey g) ↔ f = g := by
  refine ⟨fun ⟨before, after, whole⟩ => ?_, ?_⟩
  · -- The name of the property has one parenthesis of each kind, and both parts are cut there.
    have cut : "address ".toList ++ '(' :: (g.toList ++ ')' :: []) =
        (before ++ "address ".toList) ++ '(' :: (f.toList ++ ')' :: after) := by
      simpa [addressKey] using whole.symm
    have notAfter : '(' ∉ g.toList ++ ')' :: [] := by
      simpa using noOpen
    obtain ⟨-, -, inside⟩ := (List.append_cons_inj_of_notMem (by decide) notAfter).mp cut
    obtain ⟨same, -⟩ := (List.append_cons_inj_of_notMem noClose (by simp)).mp inside
    exact String.toList_inj.mp same.symm
  · rintro rfl
    exact mentions_self f

/-- All properties that mention the interface are properties of interfaces, without parentheses in
their names. -/
def Plain (v : NodeView) (f : String) : Prop :=
  ∀ name, v.properties.contains name = true → Mentions f name →
    ∃ g, '(' ∉ g.toList ∧ ')' ∉ g.toList ∧ name = addressKey g

theorem Plain.first (h : v.Plain f) (first : v.First f name) : name = addressKey f := by
  obtain ⟨g, noOpen, noClose, rfl⟩ := h name first.there first.mentions
  rw [(mentions_addressKey_iff noOpen noClose).mp first.mentions]

end NodeView

open NodeView

/-- The first property that mentions an interface is read for it. So the address is that of the
interface's own property just if the first one holds the same, and it does if all that mention the
interface are properties of interfaces without parentheses in their names. The pin of a lamp and the
address of a sensor are those of the interfaces `gpio` and of the one that is linked. -/
theorem interfaceAddress_reads_first (v : NodeView) (f : String) :
    (∀ a, v.interfaceAddress f = some a ↔ ∃ name, v.First f name ∧ v.Holds name a) ∧
    ((∀ a, v.interfaceAddress f = some a ↔ v.Holds (addressKey f) a) ↔
      ∀ name, v.First f name → ∀ a, v.Holds name a ↔ v.Holds (addressKey f) a) ∧
    (v.Plain f → ∀ a, v.interfaceAddress f = some a ↔ v.Holds (addressKey f) a) ∧
    ∀ links, (∀ led ∈ (Board.Overlay.ofLinks links).leds, ∃ l ∈ links, led.label = l.node.label ∧
        l.node.interfaceAddress "gpio" = some led.pin) ∧
      ∀ x ∈ (Board.Overlay.ofLinks links).sensors, ∃ l ∈ links, x.label = l.node.label ∧
        x.address = l.node.interfaceAddress l.nodeInterface := by
  refine ⟨fun a => interfaceAddress_eq_some_iff, interfaceAddress_iff_own, ?_, fun links => ⟨?_, ?_⟩⟩
  · intro plain
    refine interfaceAddress_iff_own.mpr fun name first a => ?_
    rw [plain.first first]
  · intro led mem
    obtain ⟨l, lit, made⟩ := List.mem_filterMap.mp mem
    obtain ⟨pin, read, rfl⟩ := Option.map_eq_some_iff.mp made
    exact ⟨l, List.mem_of_mem_filter lit, rfl, read⟩
  · intro x mem
    obtain ⟨l, sensed, rfl⟩ := List.mem_map.mp mem
    exact ⟨l, List.mem_of_mem_filter sensed, rfl, rfl⟩

/-- A thermometer with a property for another interface beside its own. -/
theorem interfaceAddress_reads_first_thermometer :
    ∃ v ∈ (thermometerBoard "address (gpio)").nodes, v.interfaceAddress "i2c" = some 0x49 ∧
      ∃ x ∈ (Board.Overlay.ofLinks [⟨"i2c0", "i2c", v⟩]).sensors, x.address = some 0x49 := by
  let v := viewOf (thermometerTypes "address (gpio)") 0
    ⟨"node-0", "TMP", "tmp", true, Table.ofList [("address (i2c)", .str "0x49")], []⟩
    ((thermometerTypes "address (gpio)").get? "TMP").get!
  obtain ⟨-, -, reads, overlay⟩ := interfaceAddress_reads_first v "i2c"
  have keys : v.properties.keys = [addressKey "gpio", addressKey "i2c"] := by decide
  have plain : v.Plain "i2c" := by
    intro name there mentions
    have mem := Table.mem_keys_iff.mpr there
    rw [keys] at mem
    simp only [List.mem_cons, List.not_mem_nil, or_false] at mem
    obtain rfl | rfl := mem
    · exact ⟨"gpio", by decide, by decide, rfl⟩
    · exact ⟨"i2c", by decide, by decide, rfl⟩
  have read := (reads plain 0x49).mpr ⟨"0x49", by decide, by decide⟩
  refine ⟨v, by decide, read, Board.sensorOf ⟨"i2c0", "i2c", v⟩, by decide, ?_⟩
  obtain ⟨l, mem, -, address⟩ := (overlay [⟨"i2c0", "i2c", v⟩]).2
    (Board.sensorOf ⟨"i2c0", "i2c", v⟩) (by decide)
  rw [address, List.mem_singleton.mp mem]
  exact read

/-- The address is read from another property than that of the interface if that has the name of
this one in its own, and sorts before it. -/
theorem other_property_is_read : ¬ ∀ d c g, validate d c = .ok g → ∀ v ∈ g.nodes, ∀ f a,
    v.interfaceAddress f = some a ↔ v.Holds (addressKey f) a := by
  intro claim
  obtain ⟨v, nodes⟩ : ∃ v, (thermometerBoard "Max address (i2c)").nodes = [v] := ⟨_, rfl⟩
  have reads : (thermometerBoard "Max address (i2c)").nodes.map (·.interfaceAddress "i2c") =
      [some 0x10] := by decide
  have assigned : (thermometerBoard "Max address (i2c)").nodes.map
      (·.properties.get? (addressKey "i2c")) = [some (.str "0x49")] := by decide
  rw [nodes, List.map_singleton, List.singleton_inj] at reads assigned
  obtain ⟨s, there, parsed⟩ := (claim thermometer (thermometerTypes "Max address (i2c)")
    (thermometerBoard "Max address (i2c)") (by decide) v (nodes ▸ .head _) "i2c" 0x10).mp reads
  rw [assigned, Option.some.injEq, Json.str.injEq] at there
  subst there
  exact absurd parsed (by decide)

end BoardDesign.Graph
