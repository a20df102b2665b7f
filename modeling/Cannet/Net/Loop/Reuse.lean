import Cannet.Net.Loop.Lives

/-!
# A pooled connection and a new one

`createConnection` sets up a connection in one of two ways: it resets the last one of the pool, or
it makes a new one. Both are followed by `connectEstablished` (`createConnection_installed`). Up to
there a reset connection, whatever its lives before were, is as a new one but for the callbacks of
the user: `connectReset` leaves them alone and the pooled branch does not set them
(`paths_agree_iff`).
-/

namespace Cannet.Net

open Foundations EventLoop TcpConnection

variable {β : Type} [Inhabited β]

/-- What `createConnection` is to set up, of a connection. -/
structure SameSetup (c c' : TcpConnection β) : Prop where
  state : c.state = c'.state
  sockFd : c.sockFd = c'.sockFd
  channel : c.channel = c'.channel
  inputBuffer : c.inputBuffer.readable = c'.inputBuffer.readable
  outputBuffer : c.outputBuffer.readable = c'.outputBuffer.readable
  sendFile : c.sendFile = c'.sendFile
  reading : c.reading = c'.reading
  connectionCallback : c.connectionCallback = c'.connectionCallback
  messageCallback : c.messageCallback = c'.messageCallback
  writeCompleteCallback : c.writeCompleteCallback = c'.writeCompleteCallback

section

variable (s : EventLoop β) (sockFd : ℤ)
  (connectCallback messageCallback writeCompleteCallback : Option Callback)

/-- The connection `createConnection` installs and the loop it is in, just before
`connectEstablished`. -/
def installed : Option (ℕ × EventLoop β) :=
  match s.connectionsPool.getLast? with
  | some none => none
  | some (some i) => some (i, s.reused sockFd i)
  | none =>
    some (s.made, s.extended sockFd connectCallback messageCallback writeCompleteCallback)

/-- **Both ways end with `connectEstablished`** on the connection that is now under `sockFd`. -/
theorem createConnection_installed {i : ℕ} {s₁ : EventLoop β}
    (h : installed s sockFd connectCallback messageCallback writeCompleteCallback = some (i, s₁)) :
    s₁.connections sockFd = some i ∧ ∃ life,
      createConnection sockFd connectCallback messageCallback writeCompleteCallback s =
        (onConnection i connectEstablished s₁).after [⟨i, life, .setKeepAlive sockFd⟩] := by
  unfold installed at h
  rcases hpool : s.connectionsPool.getLast? with _ | _ | j
  · simp only [hpool, Option.some.injEq, Prod.mk.injEq] at h
    obtain ⟨rfl, rfl⟩ := h
    exact ⟨Function.update_self _ _ _, _, createConnection_new s _ _ _ _ hpool⟩
  · simp [hpool] at h
  · simp only [hpool, Option.some.injEq, Prod.mk.injEq] at h
    obtain ⟨rfl, rfl⟩ := h
    exact ⟨Function.update_self _ _ _, _, createConnection_reuse s _ _ _ _ hpool⟩

/-- What `createConnection` installs is set up as what it would install if the pool were empty. -/
def PathsAgree : Prop :=
  ∀ x ∈ installed s sockFd connectCallback messageCallback writeCompleteCallback,
    ∀ x' ∈ installed { s with connectionsPool := [] } sockFd connectCallback messageCallback
      writeCompleteCallback, SameSetup (x.2.conn x.1) (x'.2.conn x'.1)

end

/-- A connection whose callbacks are the given ones. -/
def HasCallbacks (c : TcpConnection β)
    (connectCallback messageCallback writeCompleteCallback : Option Callback) : Prop :=
  c.connectionCallback = connectCallback ∧ c.messageCallback = messageCallback ∧
    c.writeCompleteCallback = writeCompleteCallback

instance (c : TcpConnection β) (connectCallback messageCallback writeCompleteCallback) :
    Decidable (HasCallbacks c connectCallback messageCallback writeCompleteCallback) :=
  inferInstanceAs (Decidable (_ ∧ _ ∧ _))

/-- Resetting a connection leaves what a new one has, but for the callbacks. -/
theorem sameSetup_reset_iff (c : TcpConnection β) (sockFd : ℤ)
    (connectCallback messageCallback writeCompleteCallback : Option Callback) :
    SameSetup (connectReset sockFd c).state
        (newConn sockFd connectCallback messageCallback writeCompleteCallback) ↔
      HasCallbacks c connectCallback messageCallback writeCompleteCallback := by
  constructor
  · intro h
    exact ⟨h.connectionCallback, h.messageCallback, h.writeCompleteCallback⟩
  · rintro ⟨hconnection, hmessage, hcomplete⟩
    have hempty : (newConn (β := β) sockFd connectCallback messageCallback
        writeCompleteCallback).inputBuffer.readable = [] := Buffer.readable_init _
    exact {
      state := rfl
      sockFd := rfl
      channel := rfl
      inputBuffer := (Buffer.readable_retrieveAll _).trans hempty.symm
      outputBuffer := (Buffer.readable_retrieveAll _).trans hempty.symm
      sendFile := rfl
      reading := rfl
      connectionCallback := hconnection
      messageCallback := hmessage
      writeCompleteCallback := hcomplete }

/-- With a connection in the pool, it is reset on one path and a new one is made on the other. -/
theorem pathsAgree_iff_sameSetup (s : EventLoop β) {i : ℕ}
    (hpool : s.connectionsPool.getLast? = some (some i)) (sockFd : ℤ)
    (connectCallback messageCallback writeCompleteCallback : Option Callback) :
    PathsAgree s sockFd connectCallback messageCallback writeCompleteCallback ↔
      SameSetup (connectReset sockFd (s.conn i)).state
        (newConn sockFd connectCallback messageCallback writeCompleteCallback) := by
  have hreset : (s.reused sockFd i).conn i = (connectReset sockFd (s.conn i)).state :=
    Function.update_self _ _ _
  have hnew : (EventLoop.extended { s with connectionsPool := [] } sockFd connectCallback
      messageCallback writeCompleteCallback).conn s.made =
      newConn sockFd connectCallback messageCallback writeCompleteCallback :=
    Function.update_self _ _ _
  rw [← hreset, ← hnew]
  simp only [PathsAgree, installed, hpool, List.getLast?_nil, Option.mem_def, Option.some.injEq,
    forall_eq']

/-- **The pooled path agrees with the fresh one** exactly when the connection at the end of the
pool already has the callbacks that are passed, whatever the loop and the connection have been
through. -/
theorem paths_agree_iff (s : EventLoop β) {i : ℕ}
    (hpool : s.connectionsPool.getLast? = some (some i)) (sockFd : ℤ)
    (connectCallback messageCallback writeCompleteCallback : Option Callback) :
    PathsAgree s sockFd connectCallback messageCallback writeCompleteCallback ↔
      HasCallbacks (s.conn i) connectCallback messageCallback writeCompleteCallback := by
  rw [pathsAgree_iff_sameSetup s hpool]
  exact sameSetup_reset_iff (s.conn i) sockFd _ _ _

/-- Connection 0 has been closed by its peer; the next socket comes with the same callbacks. -/
theorem paths_agree_iff_of_close :
    ∃ calls s, Run (LoopOp.exec (β := ℕ)) Scheduled EventLoop.start calls s ∧
      s.connectionsPool.getLast? = some (some 0) ∧
      (PathsAgree s 6 (some 0) (some 1) none ↔ HasCallbacks (s.conn 0) (some 0) (some 1) none) ∧
      HasCallbacks (s.conn 0) (some 0) (some 1) none := by
  have hrun : Run (LoopOp.exec (β := ℕ)) Scheduled EventLoop.start _ _ :=
    run_replay [.newConnection 5 (some 0) (some 1) none, .swapFunctors,
      .runFunctor (.ok 0) (.ok 0), .handleEvent 0 (.readCallback (.ok []))] (by decide +kernel)
  refine ⟨_, _, hrun, ?pool, paths_agree_iff _ ?pool 6 (some 0) (some 1) none, ?_⟩
  · decide +kernel
  · decide +kernel

/-- Socket 6 comes with a connection callback of its own, and is served with that of socket 5. -/
theorem reuse_keeps_old_callbacks :
    ¬∀ (calls : List (LoopCall ℕ)) (s : EventLoop ℕ),
      Run LoopOp.exec Scheduled EventLoop.start calls s →
        ∀ sockFd connectCallback messageCallback writeCompleteCallback,
          PathsAgree s sockFd connectCallback messageCallback writeCompleteCallback := by
  intro h
  have hrun : Run (LoopOp.exec (β := ℕ)) Scheduled EventLoop.start _ _ :=
    run_replay [.newConnection 5 (some 0) (some 1) none, .swapFunctors,
      .runFunctor (.ok 0) (.ok 0), .handleEvent 0 (.readCallback (.ok []))] (by decide +kernel)
  have hpaths := h _ _ hrun 6 (some 2) (some 1) none
  have hsame := (pathsAgree_iff_sameSetup (i := 0) _ (by decide +kernel) 6 (some 2) (some 1)
    none).1 hpaths
  have hcallback := hsame.connectionCallback
  revert hcallback
  decide +kernel

end Cannet.Net
