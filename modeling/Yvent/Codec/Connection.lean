import Yvent.Codec.Messages
import Yvent.Connection.Stream

/-!
# The codec at both ends of a connection

Threads send messages through the codec over one `TcpConnection`. However the loop interleaves its
writes with their calls, and however the network cuts the bytes, the codec at the other end hands on
the messages one by one, those of each thread in the order of its calls.
-/

namespace Yvent.LenHeaderCodec

open TcpConnection
open Buffer (kCheapPrepend kInitialSize maxSize)

variable {cb : Callbacks} {s : System} {trace : List Event} {caller : Caller} {data : Bytes}

/-- The message of a `sendInLoop`, behind its header. -/
def carriedBy : Event → Option (Caller × Bytes)
  | .executed caller data => some (caller, data.drop kHeaderLen)
  | _ => none

/-- The messages that the connection carries, in the order of the `sendInLoop` calls. -/
def carried (trace : List Event) : List (Caller × Bytes) := trace.filterMap carriedBy

/-- Every payload is a frame of a message that the receiver takes. -/
def Framed (trace : List Event) : Prop :=
  ∀ caller data, .executed caller data ∈ trace → ∃ message, Short message ∧ data = frame message

theorem drop_frame (message : Bytes) : (frame message).drop kHeaderLen = message :=
  List.drop_left' length_wordBytes

theorem Framed.tail {e : Event} (framed : Framed (e :: trace)) : Framed trace :=
  fun caller data mem => framed caller data (List.mem_cons_of_mem e mem)

/-- The payloads are the stream of the messages, and those of a thread are the frames of its own. -/
theorem Framed.stream (framed : Framed trace) :
    executed trace = framing.stream ((carried trace).map Prod.snd) ∧
      (∀ message ∈ (carried trace).map Prod.snd, Short message) ∧
      ∀ caller, executedBy caller trace =
        (((carried trace).filter fun m => m.1 = caller).map fun m => frame m.2) := by
  induction trace with
  | nil => exact ⟨rfl, nofun, fun _ => rfl⟩
  | cons e trace ih =>
    obtain ⟨bytes, short, each⟩ := ih framed.tail
    cases e with
    | executed caller data =>
      obtain ⟨message, fits, rfl⟩ := framed caller data List.mem_cons_self
      have first : carried (.executed caller (frame message) :: trace) =
        (caller, (frame message).drop kHeaderLen) :: carried trace := rfl
      rw [drop_frame] at first
      rw [first]
      refine ⟨?_, List.forall_mem_cons.mpr ⟨fits, short⟩, fun other => ?_⟩
      · rw [executed_cons, bytes]
        rfl
      · rw [executedBy_cons, each other]
        by_cases same : caller = other <;> simp [same]
    | _ => exact ⟨bytes, short, each⟩

end Yvent.LenHeaderCodec
