import BoardDesign.Editor.Frame
import BoardDesign.Editor.Message
import BoardDesign.Proofs.Json.Normal
import BoardDesign.Proofs.Json.ReadBack
import BoardDesign.Proofs.Text.Utf8
import Mathlib.Data.List.Basic

/-!
# Messages over a connection

* `Frame.readAll_append`: a frame in front of a connection is its first message;
* `Message.read?_payload`: a message that fits is read back from its bytes;
* `Outgoing`: the messages that the program sends, and what each is taken for on the other side;
* `readAll_written`: all messages sent come over in their order, each as what it was.
-/

namespace BoardDesign.Editor

/-! ## Frames -/

namespace Frame

variable {payload frame stream : List UInt8}

theorem write?_of_le (short : payload.length ≤ maxLength) :
    write? payload = some (header payload.length ++ payload) := by
  have least : maxLength < Nat.pow 2 32 := by decide
  exact if_pos (Nat.lt_of_le_of_lt short least)

/-- The rest of a connection is read alike whatever message came first. -/
theorem readAll_append (written : write? payload = some frame)
    (short : payload.length ≤ maxLength) :
    readAll (frame ++ stream) = (payload :: (readAll stream).1, (readAll stream).2) := by
  have first : read (frame ++ stream) = .message payload stream := read_write written short
  rw [readAll]
  split
  · rename_i here
    obtain ⟨rfl, rfl⟩ := Next.message.inj (here.symm.trans first)
    rfl
  · rename_i here
    cases here.symm.trans first
  · rename_i here
    cases here.symm.trans first

theorem readAll_nil : readAll [] = ([], none) := by
  rw [readAll]
  split
  · rename_i here
    cases here
  · rfl
  · rename_i here
    cases here

/-- Payloads that are not too long all have a frame, and come over in their order. -/
theorem readAll_frames {payloads : List (List UInt8)}
    (short : ∀ p ∈ payloads, p.length ≤ maxLength) :
    ∃ frames, payloads.mapM write? = some frames ∧ readAll frames.flatten = (payloads, none) := by
  induction payloads with
  | nil => exact ⟨[], rfl, readAll_nil⟩
  | cons p rest ih =>
    obtain ⟨frames, written, back⟩ := ih fun q mem => short q (.tail p mem)
    have first := write?_of_le (short p (.head rest))
    refine ⟨(header p.length ++ p) :: frames, ?_, ?_⟩
    · rw [List.mapM_cons, first, written]
      rfl
    · rw [List.flatten_cons, readAll_append first (short p (.head rest)), back]

end Frame

/-! ## Messages -/

namespace Message

/-- A message that fits is read back from its bytes. -/
theorem read?_payload {message : Json} (fits : Json.Fits Json.depthLimit message) :
    Incoming.read? (payload message) = some (Incoming.ofJson message) := by
  rw [Incoming.read?, payload, Text.Utf8.text?_bytes, Option.bind_some, Json.parse_compact fits,
    Option.map_some]

@[simp] theorem ofJson_request (id : Nat) (method : String) (params : Json) :
    Incoming.ofJson (request id method params) = .request (.int id) method params.normal := by
  simp only [Incoming.ofJson, request, Json.normal_normal]
  simp [version, Json.normal, Json.normalFields, Json.field?, findEntry_insertEntry, Json.str?]

@[simp] theorem ofJson_response (id result : Json) :
    Incoming.ofJson (response id result) = .response id.normal := by
  simp only [Incoming.ofJson, response, Json.normal_normal]
  simp [version, Json.normal, Json.normalFields, Json.field?, findEntry_insertEntry, findEntry]

@[simp] theorem ofJson_refused (id : Json) (r : Refusal) :
    Incoming.ofJson (refused id r) = .response id.normal := by
  simp only [Incoming.ofJson, refused, Json.normal_normal]
  simp [version, Json.normal, Json.normalFields, Json.field?, findEntry_insertEntry, findEntry]

end Message

/-- A message that the program sends. -/
inductive Outgoing where
  | request (id : Nat) (method : String) (params : Json)
  | response (id result : Json)
  | refused (id : Json) (r : Message.Refusal)

namespace Outgoing

def message : Outgoing → Json
  | .request id method params => Message.request id method params
  | .response id result => Message.response id result
  | .refused id r => Message.refused id r

def payload (m : Outgoing) : List UInt8 := Message.payload m.message

/-- What the message is on the other side, with its values in the form that the program keeps. -/
def incoming : Outgoing → Incoming
  | .request id method params => .request (.int id) method params.normal
  | .response id _ | .refused id _ => .response id.normal

/-- Whether the message can be read on the other side. -/
structure Ready (m : Outgoing) : Prop where
  short : m.payload.length ≤ Frame.maxLength
  shallow : m.message.nesting ≤ 127
  lossless : m.message.Lossless

theorem ofJson_message (m : Outgoing) : Incoming.ofJson m.message = m.incoming := by
  cases m with
  | request id method params => exact Message.ofJson_request id method params
  | response id result => exact Message.ofJson_response id result
  | refused id r => exact Message.ofJson_refused id r

theorem Ready.read? {m : Outgoing} (ready : m.Ready) :
    Incoming.read? m.payload = some m.incoming := by
  have fits : Json.Fits Json.depthLimit m.message :=
    (Json.fits_iff m.message (by decide)).mpr ⟨Nat.lt_succ_of_le ready.shallow, ready.lossless⟩
  rw [payload, Message.read?_payload fits, ofJson_message]

/-- Everything that is sent comes over, in its order and as what it was: each message has a frame,
the connection ends after the last one, and each is taken for what was sent. -/
theorem readAll_written {sent : List Outgoing} (ready : ∀ m ∈ sent, m.Ready) :
    ∃ frames, (sent.map payload).mapM Frame.write? = some frames ∧
      Frame.readAll frames.flatten = (sent.map payload, none) ∧
      (sent.map payload).map Incoming.read? = sent.map fun m => some m.incoming := by
  have short : ∀ p ∈ sent.map payload, p.length ≤ Frame.maxLength :=
    List.forall_mem_map.mpr fun m mem => (ready m mem).short
  obtain ⟨frames, written, back⟩ := Frame.readAll_frames short
  refine ⟨frames, written, back, ?_⟩
  rw [List.map_map]
  exact List.map_congr_left fun m mem => (ready m mem).read?

/-- A call with a fraction among its parameters, an answer and a refusal. -/
def session : List Outgoing :=
  [.request 3 "position_on_change" (.obj [("x", .float ⟨false, Nat.pow 2 52, -53⟩)]),
    .response (.str "a") .null, .refused (.int 7) (Message.unknownMethod "b")]

theorem ready_session : ∀ m ∈ session, m.Ready := by
  have half : Json.Number.ReadsBack ⟨false, Nat.pow 2 52, -53⟩ := by decide +kernel
  have call : (Outgoing.request 3 "position_on_change"
      (.obj [("x", .float ⟨false, Nat.pow 2 52, -53⟩)])).message =
      .obj [("id", .int 3), ("jsonrpc", .str "2.0"), ("method", .str "position_on_change"),
        ("params", .obj [("x", .float ⟨false, Nat.pow 2 52, -53⟩)])] := by decide +kernel
  have answer : (Outgoing.response (.str "a") .null).message =
      .obj [("id", .str "a"), ("jsonrpc", .str "2.0"), ("result", .null)] := by decide +kernel
  have refusal : (Outgoing.refused (.int 7) (Message.unknownMethod "b")).message =
      .obj [("error", .obj [("code", .int (-32601)), ("message", .str "unknown method 'b'")]),
        ("id", .int 7), ("jsonrpc", .str "2.0")] := by decide +kernel
  simp only [session, List.forall_mem_cons]
  refine ⟨⟨by decide +kernel, by decide +kernel, ?_⟩, ⟨by decide +kernel, by decide +kernel, ?_⟩,
    ⟨by decide +kernel, by decide +kernel, ?_⟩, nofun⟩
  · simp [call, Json.Lossless, Json.LosslessFields, half]
  · simp [answer, Json.Lossless, Json.LosslessFields]
  · simp [refusal, Json.Lossless, Json.LosslessFields]

theorem readAll_session :
    (∀ m ∈ session, m.Ready) ∧ ∃ frames, (session.map payload).mapM Frame.write? = some frames ∧
      Frame.readAll frames.flatten = (session.map payload, none) ∧
      (session.map payload).map Incoming.read? = session.map fun m => some m.incoming :=
  ⟨ready_session, readAll_written ready_session⟩

end Outgoing

end BoardDesign.Editor
