import BoardDesign.Proofs.Editor.Wire

/-!
# Where a connection ends

* `Ending`: the four places at which a connection can end, or cease to be taken;
* `Cut`: a connection as its whole frames and the place at which it ends;
* `read_eq_message_iff` and its companions: when the first message is what;
* `Cut.readAll`, `exists_cut`, `Cut.unique`: every connection is cut in one way, and read so;
* `readAll_tells_cut`: what is told of each place;
* `ended_within_length`: a connection that ends within a length passes for one that was closed.
-/

namespace BoardDesign.Editor.Frame

/-- Where a connection ends, or ceases to be taken. -/
inductive Ending where
  /-- Behind a whole frame, or before the first one. -/
  | boundary
  /-- After one to three bytes of a length. -/
  | inHeader
  /-- Behind a length that no message may have. -/
  | tooLong (length : Nat)
  /-- After a length, before as many bytes have come. -/
  | inPayload
deriving DecidableEq, Repr

/-- What is left behind the last whole frame. -/
inductive Left : List UInt8 → Ending → Prop where
  | boundary : Left [] .boundary
  | inHeader {bytes : List UInt8} : bytes ≠ [] → bytes.length < 4 → Left bytes .inHeader
  | tooLong {n : Nat} {rest : List UInt8} :
      maxLength < n → n < Nat.pow 2 32 → Left (header n ++ rest) (.tooLong n)
  | inPayload {n : Nat} {part : List UInt8} :
      n ≤ maxLength → part.length < n → Left (header n ++ part) .inPayload

/-- The payloads as frames, one behind the other. -/
def framed (payloads : List (List UInt8)) : List UInt8 :=
  payloads.flatMap fun p => header p.length ++ p

@[simp] theorem framed_cons (p : List UInt8) (rest : List (List UInt8)) :
    framed (p :: rest) = header p.length ++ (p ++ framed rest) := by
  rw [framed, List.flatMap_cons, List.append_assoc, framed]

/-- A connection as the payloads of its whole frames and the place at which it ends. -/
structure Cut (stream : List UInt8) (payloads : List (List UInt8)) (ending : Ending) : Prop where
  short : ∀ p ∈ payloads, p.length ≤ maxLength
  left : ∃ bytes, stream = framed payloads ++ bytes ∧ Left bytes ending

/-- What is told where a connection ends. -/
def Ending.told : Ending → Option Fault
  | .boundary | .inHeader => none
  | .tooLong n => some (.tooLong n)
  | .inPayload => some .truncated

/-! ## The first message -/

section First

variable {stream payload rest part : List UInt8} {n : Nat}

theorem lengthOf_lt (a b c d : UInt8) : lengthOf a b c d < Nat.pow 2 32 := by
  have ha := a.toNat_lt
  have hb := b.toNat_lt
  have hc := c.toNat_lt
  have hd := d.toNat_lt
  simp only [lengthOf, Nat.pow_eq]
  omega

/-- Any four bytes are the header of a length. -/
theorem header_lengthOf (a b c d : UInt8) : header (lengthOf a b c d) = [a, b, c, d] := by
  have ha := a.toNat_lt
  have hb := b.toNat_lt
  have hc := c.toNat_lt
  have hd := d.toNat_lt
  simp only [header, lengthOf, List.cons.injEq, ← UInt8.toNat_inj, UInt8.toNat_ofNat', Nat.pow_eq,
    and_true]
  omega

theorem lt_of_le_maxLength (short : n ≤ maxLength) : n < Nat.pow 2 32 :=
  Nat.lt_of_le_of_lt short (by decide)

theorem read_header_append (small : n < Nat.pow 2 32) :
    read (header n ++ rest) =
      if maxLength < n then .failed (.tooLong n)
      else if rest.length < n then .failed .truncated
      else .message (rest.take n) (rest.drop n) := by
  simp only [header, List.cons_append, List.nil_append, read, lengthOf_header small]

/-- Either less than a length has come, or a length and what follows it. -/
theorem short_or_header (stream : List UInt8) :
    stream.length < 4 ∨ ∃ n rest, n < Nat.pow 2 32 ∧ stream = header n ++ rest := by
  match stream with
  | [] | [_] | [_, _] | [_, _, _] => simp
  | a :: b :: c :: d :: rest =>
    refine .inr ⟨lengthOf a b c d, rest, lengthOf_lt a b c d, ?_⟩
    rw [header_lengthOf]
    rfl

theorem read_of_length_lt (short : stream.length < 4) : read stream = .ended := by
  match stream, short with
  | [], _ | [_], _ | [_, _], _ | [_, _, _], _ => rfl
  | _ :: _ :: _ :: _ :: _, short =>
    simp only [List.length_cons] at short
    omega

theorem read_frame (short : payload.length ≤ maxLength) :
    read (header payload.length ++ (payload ++ rest)) = .message payload rest := by
  rw [read_header_append (lt_of_le_maxLength short), if_neg (Nat.not_lt.mpr short),
    if_neg (by simp), List.take_left, List.drop_left]

/-- A message is taken exactly from a whole frame of it. -/
theorem read_eq_message_iff :
    read stream = .message payload rest ↔
      payload.length ≤ maxLength ∧ stream = header payload.length ++ (payload ++ rest) := by
  constructor
  · intro first
    obtain short | ⟨n, more, small, rfl⟩ := short_or_header stream
    · cases (read_of_length_lt short).symm.trans first
    · rw [read_header_append small] at first
      split at first
      · cases first
      · rename_i fits
        split at first
        · cases first
        · rename_i whole
          obtain ⟨rfl, rfl⟩ := Next.message.inj first
          have same : (more.take n).length = n := List.length_take_of_le (Nat.not_lt.mp whole)
          rw [same, List.take_append_drop]
          exact ⟨Nat.not_lt.mp fits, rfl⟩
  · rintro ⟨short, rfl⟩
    exact read_frame short

end First

/-! ## The whole connection -/

section Whole

variable {stream rest : List UInt8} {payload : List UInt8} {payloads : List (List UInt8)}
  {ending : Ending}

theorem readAll_of_message (first : read stream = .message payload rest) :
    readAll stream = (payload :: (readAll rest).1, (readAll rest).2) := by
  obtain ⟨short, rfl⟩ := read_eq_message_iff.mp first
  rw [← List.append_assoc]
  exact readAll_append (write?_of_le short) short

theorem readAll_of_ended (first : read stream = .ended) : readAll stream = ([], none) := by
  rw [readAll]
  split
  all_goals
    rename_i here
    cases here.symm.trans first
  rfl

theorem readAll_of_failed {fault : Fault} (first : read stream = .failed fault) :
    readAll stream = ([], some fault) := by
  rw [readAll]
  split
  all_goals
    rename_i here
    cases here.symm.trans first
  rfl

/-- Where nothing whole is left, no message is taken, and what is told is told of the place. -/
theorem Left.readAll (left : Left stream ending) : readAll stream = ([], ending.told) := by
  cases left with
  | boundary => exact readAll_nil
  | inHeader _ short => exact readAll_of_ended (read_of_length_lt short)
  | tooLong long small =>
    apply readAll_of_failed
    rw [read_header_append small, if_pos long]
  | inPayload short cut =>
    apply readAll_of_failed
    rw [read_header_append (lt_of_le_maxLength short), if_neg (Nat.not_lt.mpr short), if_pos cut]

theorem readAll_framed_append {bytes : List UInt8} (short : ∀ p ∈ payloads, p.length ≤ maxLength) :
    readAll (framed payloads ++ bytes) =
      (payloads ++ (Frame.readAll bytes).1, (Frame.readAll bytes).2) := by
  induction payloads with
  | nil => rfl
  | cons p rest ih =>
    obtain ⟨first, others⟩ := List.forall_mem_cons.mp short
    simp only [framed_cons, List.append_assoc, List.cons_append,
      readAll_of_message (read_frame first), ih others]

/-- All whole frames are taken, and then what is told is told of the place. -/
theorem Cut.readAll (cut : Cut stream payloads ending) :
    Frame.readAll stream = (payloads, ending.told) := by
  obtain ⟨bytes, rfl, left⟩ := cut.left
  rw [readAll_framed_append cut.short, left.readAll, List.append_nil]

theorem Left.eq_nil (left : Left stream .boundary) : stream = [] := by
  generalize same : Ending.boundary = e at left
  cases left with
  | boundary => rfl
  | inHeader | tooLong | inPayload => cases same

theorem Left.ne_nil (left : Left stream .inHeader) : stream ≠ [] := by
  generalize same : Ending.inHeader = e at left
  cases left with
  | inHeader some _ => exact some
  | boundary | tooLong | inPayload => cases same

theorem Left.unique {ending' : Ending} (left : Left stream ending) (left' : Left stream ending') :
    ending = ending' := by
  have told : ending.told = ending'.told :=
    congrArg Prod.snd (left.readAll.symm.trans left'.readAll)
  cases ending <;> cases ending' <;> simp only [Ending.told, reduceCtorEq, Option.some.injEq,
    Fault.tooLong.injEq] at told ⊢
  -- only the two places of which nothing is told are left
  · exact absurd left.eq_nil left'.ne_nil
  · exact absurd left'.eq_nil left.ne_nil
  · exact congrArg _ told

/-- A connection ends in one place only. -/
theorem Cut.unique {payloads' : List (List UInt8)} {ending' : Ending}
    (cut : Cut stream payloads ending) (cut' : Cut stream payloads' ending') :
    payloads' = payloads ∧ ending' = ending := by
  obtain rfl : payloads' = payloads := congrArg Prod.fst (cut'.readAll.symm.trans cut.readAll)
  obtain ⟨bytes, whole, left⟩ := cut.left
  obtain ⟨bytes', whole', left'⟩ := cut'.left
  obtain rfl := List.append_cancel_left (whole.symm.trans whole')
  exact ⟨rfl, left'.unique left⟩

theorem exists_left_or_message (stream : List UInt8) :
    (∃ ending, Left stream ending) ∨ ∃ payload rest, read stream = .message payload rest := by
  obtain short | ⟨n, rest, small, rfl⟩ := short_or_header stream
  · by_cases empty : stream = []
    · exact .inl ⟨.boundary, empty ▸ .boundary⟩
    · exact .inl ⟨.inHeader, .inHeader empty short⟩
  · by_cases long : maxLength < n
    · exact .inl ⟨.tooLong n, .tooLong long small⟩
    · by_cases part : rest.length < n
      · exact .inl ⟨.inPayload, .inPayload (Nat.not_lt.mp long) part⟩
      · refine .inr ⟨rest.take n, rest.drop n, ?_⟩
        rw [read_header_append small, if_neg long, if_neg part]

theorem Cut.ends (left : Left stream ending) : Cut stream [] ending :=
  ⟨nofun, stream, rfl, left⟩

theorem Cut.frame (short : payload.length ≤ maxLength) (cut : Cut rest payloads ending) :
    Cut (header payload.length ++ (payload ++ rest)) (payload :: payloads) ending := by
  obtain ⟨bytes, rfl, left⟩ := cut.left
  refine ⟨List.forall_mem_cons.mpr ⟨short, cut.short⟩, bytes, ?_, left⟩
  simp only [framed_cons, List.append_assoc]

/-- Every connection ends somewhere. -/
theorem exists_cut (stream : List UInt8) : ∃ payloads ending, Cut stream payloads ending := by
  -- on the length of what is still to be read
  induction h : stream.length using Nat.strongRecOn generalizing stream with
  | _ n ih =>
    obtain ⟨ending, left⟩ | ⟨payload, rest, first⟩ := exists_left_or_message stream
    · exact ⟨[], ending, .ends left⟩
    · obtain ⟨payloads, ending, cut⟩ := ih rest.length (h ▸ length_rest_lt first) rest rfl
      obtain ⟨short, rfl⟩ := read_eq_message_iff.mp first
      exact ⟨payload :: payloads, ending, .frame short cut⟩

/-- What is told of each place at which a connection can end. Every connection is in one way whole
frames and one of the four endings. The payloads of all whole frames are taken; a length that no
message may have and an end behind a length are told as such and of nothing else; and an end
within a length is not told from an end behind a whole frame. -/
theorem readAll_tells_cut (stream : List UInt8) :
    ∃ payloads ending, Cut stream payloads ending ∧
      (∀ payloads' ending', Cut stream payloads' ending' →
        payloads' = payloads ∧ ending' = ending) ∧
      (readAll stream).1 = payloads ∧
      ((readAll stream).2 = none ↔ ending = .boundary ∨ ending = .inHeader) ∧
      (∀ n, (readAll stream).2 = some (.tooLong n) ↔ ending = .tooLong n) ∧
      ((readAll stream).2 = some .truncated ↔ ending = .inPayload) := by
  obtain ⟨payloads, ending, cut⟩ := exists_cut stream
  refine ⟨payloads, ending, cut, fun _ _ => cut.unique, ?_⟩
  rw [cut.readAll]
  cases ending <;> simp [Ending.told]

/-- A whole empty frame and two bytes of the next length: the connection ends within a length, no
payload is taken of the second frame, and yet nothing is told. -/
theorem ended_within_length :
    Cut [0, 0, 0, 0, 0, 0] [[]] .inHeader ∧ readAll [0, 0, 0, 0, 0, 0] = ([[]], none) ∧
      ¬ ∀ stream payloads, readAll stream = (payloads, none) → Cut stream payloads .boundary := by
  have within : Left [0, 0] .inHeader := .inHeader nofun (by decide)
  have short : ([] : List UInt8).length ≤ maxLength := Nat.zero_le _
  have cut : Cut (header 0 ++ ([] ++ [0, 0])) [[]] .inHeader := .frame short (.ends within)
  refine ⟨cut, cut.readAll, fun claim => ?_⟩
  cases (cut.unique (claim _ _ cut.readAll)).2

end Whole

end BoardDesign.Editor.Frame
