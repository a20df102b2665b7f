import Cannet.Net.Connection.Lifecycle
import Cannet.Net.Connection.Frame
import Cannet.Net.Loop.Lives

/-!
# Connect and disconnect notifications

The user is told of a connection by `connectionCallback_`: once by `connectEstablished`. The
second notification is in `connectDestroyed`, behind a test for `kConnected`, and `handleClose`,
the only way there, has set `kDisconnected` by then. So no life of a connection has a second
notification (`notified_once`).
-/

namespace Cannet.Net

open Foundations

variable {β : Type}

/-- The value of `connected()` in a call of `connectionCallback_`. -/
def Effect.notification : Effect β → Option Bool
  | .connectionCallback connected => some connected
  | _ => none

/-- The calls of `connectionCallback_`, in order. -/
def notifications (es : List (Effect β)) : List Bool := es.filterMap Effect.notification

@[simp] theorem notifications_append (es es' : List (Effect β)) :
    notifications (es ++ es') = notifications es ++ notifications es' := List.filterMap_append

/-- What neither notifies the user nor closes the connection. -/
def Effect.isQuiet (e : Effect β) : Bool := e.notification.isNone && !e.isRecycle

/-- Once established, a connection has been notified of exactly once; until then neither notified
of nor closed. -/
def NotifiedOnce (es : List (Effect β)) (c : TcpConnection β) : Prop :=
  if c.state = .kConnecting then notifications es = [] ∧ es.all (!·.isRecycle) = true
  else notifications es = [true]

namespace NotifiedOnce

variable {es : List (Effect β)} {c c' : TcpConnection β}

theorem quiet (h : NotifiedOnce es c) {e : Effect β} (he : e.isQuiet = true) :
    NotifiedOnce (es ++ [e]) c := by
  obtain ⟨hnone, hrecycle⟩ := Bool.and_eq_true_iff.1 he
  have hnot : notifications [e] = [] := by
    simp [notifications, Option.isNone_iff_eq_none.1 hnone]
  rw [NotifiedOnce, notifications_append, hnot, List.append_nil]
  unfold NotifiedOnce at h
  split
  · rename_i hs
    rw [if_pos hs] at h
    exact ⟨h.1, by simp [h.2, hrecycle]⟩
  · rename_i hs
    rwa [if_neg hs] at h

theorem same (h : NotifiedOnce es c) (hs : c'.state = c.state) : NotifiedOnce es c' := by
  rw [NotifiedOnce, hs]
  exact h

theorem notified (h : NotifiedOnce es c) (hs : c.state ≠ .kConnecting) :
    notifications es = [true] := by
  rwa [NotifiedOnce, if_neg hs] at h

theorem of_notified (h : notifications es = [true]) (hs : c.state ≠ .kConnecting) :
    NotifiedOnce es c := by
  rwa [NotifiedOnce, if_neg hs]

/-- A connection that has been closed was notified of once. -/
theorem of_recycle (h : NotifiedOnce es c) {fd : ℤ} (hmem : .recycle fd ∈ es) :
    notifications es = [true] := by
  unfold NotifiedOnce at h
  split at h
  · have := List.all_eq_true.1 h.2 _ hmem
    simp [Effect.isRecycle] at this
  · exact h

end NotifiedOnce

/-- Only opening and closing matters. -/
theorem notifiedOnce_frame : CallFrame (β := β) NotifiedOnce where
  emit e he es c h := h.quiet (by cases e <;> first | rfl | cases he)
  channel _ _ _ h := h.same rfl
  inputBuffer _ _ _ h := h.same rfl
  outputBuffer _ _ _ h := h.same rfl
  sendFile _ _ _ h := h.same rfl
  reading _ _ _ h := h.same rfl

namespace TcpConnection

theorem notifiedOnce_connectEstablished {es : List (Effect β)} {c : TcpConnection β}
    (h : NotifiedOnce es c) (hok : (connectEstablished c).val = .ok ()) :
    NotifiedOnce (es ++ (connectEstablished c).trace) (connectEstablished c).state := by
  have ho := connectEstablished_outcome c
  generalize connectEstablished c = o at ho hok ⊢
  cases ho with
  | refused hs => cases hok
  | unset hs hcb => cases hok
  | opened hs hcb =>
    rw [NotifiedOnce, if_pos hs] at h
    refine .of_notified ?_ (by simp [established])
    rw [notifications_append, h.1]
    rfl

theorem keeps_handleClose : (handleClose (β := β)).Keeps NotifiedOnce := by
  intro es c h
  have ho := handleClose_outcome c
  generalize handleClose c = o at ho ⊢
  cases ho with
  | refused hdead =>
    rw [List.append_nil]
    exact h
  | unset hlive hcb =>
    have hn := h.notified (by rcases hlive with hs | hs <;> simp [hs])
    refine .of_notified ?_ (by simp)
    rw [notifications_append, hn]
    rfl
  | closed hlive hcb =>
    have hn := h.notified (by rcases hlive with hs | hs <;> simp [hs])
    refine .of_notified ?_ (by simp [TcpConnection.closed])
    rw [notifications_append, hn, closeCalls, Channel.removeCalls]
    split <;> rfl

/-- A live connection may change its state. -/
theorem keeps_setState {s : StateE} (hs : s ≠ .kConnecting) {es : List (Effect β)}
    {c : TcpConnection β} (h : NotifiedOnce es c) (hc : c.state ≠ .kConnecting) :
    NotifiedOnce es { c with state := s } := .of_notified (h.notified hc) hs

theorem keeps_shutdown (onLoop : Bool) : (shutdown (β := β) onLoop).Keeps NotifiedOnce := by
  intro es c h
  rw [shutdown, Act.get_bind, Act.ite_apply]
  by_cases hs : c.state = .kConnected
  · rw [if_pos hs, setState, Act.modify_bind]
    exact notifiedOnce_frame.keeps_runInLoop _ _
      notifiedOnce_frame.output.keeps_shutdownInLoop es _
      (keeps_setState (by simp) h (by simp [hs]))
  · rw [if_neg hs]
    exact Act.Keeps.pure () es c h

theorem keeps_forceClose : (forceClose (β := β)).Keeps NotifiedOnce := by
  intro es c h
  rw [forceClose, Act.get_bind, Act.ite_apply]
  by_cases hs : c.state = .kConnected ∨ c.state = .kDisconnecting
  · rw [if_pos hs, setState, Act.modify_bind]
    exact Act.Keeps.emit (fun _ _ h => h.quiet rfl) es _
      (keeps_setState (by simp) h (by rcases hs with hs | hs <;> simp [hs]))
  · rw [if_neg hs]
    exact Act.Keeps.pure () es c h

end TcpConnection

open TcpConnection in
theorem notifiedOnce_life [Inhabited β] : LifeInvariant (β := β) NotifiedOnce :=
  notifiedOnce_frame.lifeInvariant (fun _ _ _ _ => ⟨rfl, rfl⟩) (fun _ _ _ _ => ⟨rfl, rfl⟩)
    (fun _ _ h hok => notifiedOnce_connectEstablished h hok) keeps_handleClose keeps_shutdown
    keeps_forceClose

/-! ## A life that is over -/

/-- One notification with `connected()` true, and one with `connected()` false. -/
def Paired (es : List (Effect β)) : Prop := notifications es = [true, false]

/-- **A connection that was closed** has been notified of once, when it was established, and of
its end in no run. -/
theorem notified_once [Inhabited β] {calls : List (LoopCall β)} {s : EventLoop β}
    (h : Run LoopOp.exec Scheduled EventLoop.start calls s) {i life : ℕ} {fd : ℤ}
    (hclosed : .recycle fd ∈ lifeTrace (traceOf calls) i life) :
    notifications (lifeTrace (traceOf calls) i life) = [true] ∧
      ¬Paired (lifeTrace (traceOf calls) i life) := by
  have hlives := (loopInvariant_of_run notifiedOnce_life h).lives
  obtain ⟨hi, hlife⟩ := hlives.bound _ (mem_lifeTrace.1 hclosed)
  obtain ⟨c, hc⟩ := hlives.all hi hlife
  have hone := hc.of_recycle hclosed
  refine ⟨hone, fun hpaired => ?_⟩
  rw [Paired, hone] at hpaired
  cases hpaired

/-- Connection 0 is established on socket 5 and closed by its peer. -/
theorem notified_once_of_peer_close :
    ∃ calls s, Run (LoopOp.exec (β := ℕ)) Scheduled EventLoop.start calls s ∧
      .recycle 5 ∈ lifeTrace (traceOf calls) 0 0 ∧
      notifications (lifeTrace (traceOf calls) 0 0) = [true] ∧
      ¬Paired (lifeTrace (traceOf calls) 0 0) := by
  have hrun : Run (LoopOp.exec (β := ℕ)) Scheduled EventLoop.start _ _ :=
    run_replay [.newConnection 5 (some 0) (some 1) none, .swapFunctors,
      .runFunctor (.ok 0) (.ok 0), .handleEvent 0 (.readCallback (.ok []))] (by decide +kernel)
  refine ⟨_, _, hrun, ?hclosed, notified_once hrun ?hclosed⟩
  decide +kernel

/-- A peer that closes its end is not reported to the user. -/
theorem close_not_notified :
    ¬∀ (calls : List (LoopCall ℕ)) (s : EventLoop ℕ),
      Run LoopOp.exec Scheduled EventLoop.start calls s → ∀ i life fd,
        .recycle fd ∈ lifeTrace (traceOf calls) i life →
          Paired (lifeTrace (traceOf calls) i life) := by
  intro h
  have hrun : Run (LoopOp.exec (β := ℕ)) Scheduled EventLoop.start _ _ :=
    run_replay [.newConnection 5 (some 0) (some 1) none, .swapFunctors,
      .runFunctor (.ok 0) (.ok 0), .handleEvent 0 (.readCallback (.ok []))] (by decide +kernel)
  have hpaired := h _ _ hrun 0 0 5 (by decide +kernel)
  revert hpaired
  unfold Paired
  decide +kernel

end Cannet.Net
