import Cannet.Net.Connection.Frame
import Cannet.Net.Connection.Runs

/-!
# Which messages `send` passes on

A message given to `send` should reach `sendInLoop` once if the connection is connected, and not
at all otherwise, on whatever thread the call is made. `passed` reads off a trace what reaches
`sendInLoop`, and `send_delivers_iff` says when `send` meets this: on the loop's thread, connected.
-/

namespace Cannet.Net

open Foundations TcpConnection

variable {β : Type}

/-- What goes to `sendInLoop`, now or when a queued functor runs: the bytes and the length. The
bytes of a message captured by reference are gone by then. -/
def Effect.passed : Effect β → List (Option (List β × ℕ))
  | .sendInLoop data len => [some (data, len)]
  | .queueInLoop (.sendInLoop (.byValue data)) => [some (data, data.length)]
  | .queueInLoop (.sendInLoop .byReference) => [none]
  | _ => []

def passed (es : List (Effect β)) : List (Option (List β × ℕ)) := es.flatMap Effect.passed

@[simp] theorem passed_nil : passed ([] : List (Effect β)) = [] := rfl

@[simp] theorem passed_cons (e : Effect β) (es : List (Effect β)) :
    passed (e :: es) = e.passed ++ passed es := List.flatMap_cons

@[simp] theorem passed_append (es es' : List (Effect β)) :
    passed (es ++ es') = passed es ++ passed es' := List.flatMap_append

theorem Effect.passed_of_isOutput {e : Effect β} (h : e.isOutput = true) : e.passed = [] := by
  unfold Effect.isOutput at h
  split at h <;> first | rfl | contradiction

/-- The output side passes nothing to `sendInLoop`. -/
theorem outputFrame_passed (l : List (Option (List β × ℕ))) :
    OutputFrame fun es (_ : TcpConnection β) => passed es = l where
  emit e he es _ h := by simp [h, Effect.passed_of_isOutput he]
  channel _ _ _ h := h
  outputBuffer _ _ _ h := h
  sendFile _ _ _ h := h

variable [Inhabited β]

theorem passed_sendInLoop (w f : SysRet) (data : List β) (len : ℕ) (c : TcpConnection β) :
    passed (sendInLoop w f data len c).trace = [some (data, len)] := by
  obtain ⟨rest, heq, hrest⟩ := sendInLoop_entry w f data len
  rw [heq, Act.emit_bind]
  exact hrest _ (outputFrame_passed [some (data, len)]) [.sendInLoop data len] c rfl

/-- `send` passes the message to `sendInLoop` once if connected, and nothing otherwise. -/
def Delivers (onLoop : Bool) (w f : SysRet) (message : List β) (c : TcpConnection β) : Prop :=
  passed (send onLoop w f message c).trace =
    if c.state = .kConnected then [some (message, message.length)] else []

/-- On another thread a connected `send` does nothing. -/
theorem send_connected_other_thread (w f : SysRet) (message : List β) {c : TcpConnection β}
    (hconn : c.state = .kConnected) : send false w f message c = ⟨.ok (), c, []⟩ := by
  rw [send, Act.get_bind, Act.ite_apply, if_pos hconn]
  rfl

/-- **`send` delivers by the state alone exactly** when it is called on the loop's thread and the
connection is connected. Connected, another thread's message is dropped; in every other state the
message is passed on, and from another thread by a functor that has lost it. -/
theorem send_delivers_iff (onLoop : Bool) (w f : SysRet) (message : List β)
    (c : TcpConnection β) :
    Delivers onLoop w f message c ↔ c.state = .kConnected ∧ onLoop = true := by
  unfold Delivers
  by_cases hconn : c.state = .kConnected
  · rw [if_pos hconn]
    cases onLoop with
    | true =>
      rw [send_live w f message (.inl hconn), passed_sendInLoop]
      exact ⟨fun _ => ⟨hconn, rfl⟩, fun _ => rfl⟩
    | false =>
      rw [send_connected_other_thread w f message hconn]
      simp
  · have hsend : send onLoop w f message c = runInLoop onLoop (.sendInLoop .byReference)
        (sendInLoop w f message message.length) c := by
      rw [send, Act.get_bind, Act.ite_apply, if_neg hconn]
    rw [hsend, if_neg hconn, runInLoop]
    refine ⟨fun h => ?_, fun h => absurd h.1 hconn⟩
    cases onLoop with
    | true =>
      rw [if_pos rfl, passed_sendInLoop] at h
      contradiction
    | false =>
      rw [if_neg (by simp), Act.emit_apply] at h
      contradiction

/-- A message sent by another thread on a connected connection is dropped. -/
theorem send_other_thread_dropped :
    ¬Delivers false (.ok 3) (.ok 0) [1, 2, 3] (opened 5 : TcpConnection ℕ) := by
  intro h
  rw [Delivers, send_connected_other_thread _ _ _ rfl] at h
  contradiction

end Cannet.Net
