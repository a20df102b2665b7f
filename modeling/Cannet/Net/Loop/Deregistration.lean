import Cannet.Net.Loop.Standing

/-!
# Taking a connection out of the poller

Closing a connection sets its mask to empty and has the poller told by `updateChannel`, as for
every other change of the mask. With the channel in the poller that deletes its descriptor, and
`removeChannel` closes it. With an empty mask to begin with, for a connection that has been paused
and has nothing to write, the same call adds the descriptor, and `removeChannel` deletes it when it
has been closed.
-/

namespace Cannet.Net

open Foundations TcpConnection

variable {β : Type}

/-- What a call does takes the connection's descriptor out of the poller, when the kernel keeps `d`
of it. -/
structure Deregisters (d : Descriptor (BitVec 32)) (fd : ℤ)
    (o : Outcome Abort (Effect β) (TcpConnection β) Unit) : Prop where
  returned : o.val = .ok ()
  own : ∀ call ∈ ctls o.trace, call.1 = fd
  added : ∀ events, (fd, .add events) ∉ ctls o.trace
  deleted : ∀ pre post, ctls o.trace = pre ++ (fd, .del) :: post →
    (d.run (pre.map Prod.snd)).Accepts .del
  absent : (d.run ((ctls o.trace).map Prod.snd)).mask = none
  status : o.state.channel.status = .kNew

/-- What closing does to the descriptor. -/
theorem ctls_closeCalls (c : TcpConnection β) :
    ctls c.closeCalls =
      if c.channel.status = .kAdded then [(c.channel.fd, .del), (c.channel.fd, .close)]
      else [(c.channel.fd, .add kNoneEvent), (c.channel.fd, .close), (c.channel.fd, .del)] := by
  have hnone : (0 : BitVec 32) = kNoneEvent := rfl
  by_cases hs : c.channel.status = .kAdded
  · simp [closeCalls, Channel.removeCalls, Channel.disabled, Channel.updated, Channel.updateCall,
      Channel.nextOp, Channel.nextStatus, Channel.isNoneEvent, Effect.ctl, EpollOp.ctl, hs]
  · simp [closeCalls, Channel.removeCalls, Channel.disabled, Channel.updated, Channel.updateCall,
      Channel.nextOp, Channel.nextStatus, Channel.isNoneEvent, Effect.ctl, EpollOp.ctl, hs]

/-- **Closing a live connection** takes it out of the poller when it is in. -/
theorem closing_deregisters {es : List (Effect β)} {c : TcpConnection β} (h : Standing es c)
    (hlive : c.Live) :
    Deregisters (kernelEntry es) c.channel.fd (handleClose c) ↔ c.channel.status = .kAdded := by
  rw [handleClose_live hlive h.closeCallback]
  constructor
  · intro hclean
    by_contra hs
    refine hclean.added kNoneEvent ?_
    rw [ctls_closeCalls, if_neg hs]
    exact List.mem_cons_self
  · intro hs
    have hregistered := (h.tuned hlive).registered
    have hcalls : ctls c.closeCalls = [(c.channel.fd, .del), (c.channel.fd, .close)] := by
      rw [ctls_closeCalls, if_pos hs]
    have haccepts : (kernelEntry es).Accepts .del :=
      ⟨hregistered.opened, hregistered.isSome_iff.2 hs⟩
    have haccepted : (kernelEntry es).Accepted [.del, .close] :=
      ⟨haccepts, hregistered.opened, trivial⟩
    have hrun : (kernelEntry es).run [.del, .close] = .closed := by
      have hclose : ((kernelEntry es).apply .del).Accepts .close := hregistered.opened
      rw [Descriptor.run_cons, Descriptor.after_of_accepts haccepts,
        Descriptor.run_singleton hclose]
      rfl
    refine ⟨rfl, ?_, ?_, ?_, ?_, rfl⟩
    · rw [hcalls]
      simp
    · rw [hcalls]
      simp
    · intro pre post hsplit
      rw [hcalls] at hsplit
      have hmap := congrArg (List.map Prod.snd) hsplit
      rw [List.map_append, List.map_cons] at hmap
      exact Descriptor.Accepted.accepts (hmap ▸ haccepted)
    · have habsent : ((kernelEntry es).run [.del, .close]).mask = none := by rw [hrun]; rfl
      rwa [hcalls]

/-- **Closing deregisters** a live connection exactly when its channel is in the poller, which it is
not while the connection is paused and has nothing to write: after every run of the loop. -/
theorem close_deregisters_iff [Inhabited β] {calls : List (LoopCall β)} {s : EventLoop β}
    (h : Run LoopOp.exec Scheduled EventLoop.start calls s) {i : ℕ} (hi : i < s.made)
    (hlive : (s.conn i).Live) :
    Deregisters (kernelEntry (lifeTrace (traceOf calls) i (s.life i))) (s.conn i).channel.fd
      (handleClose (s.conn i)) ↔ (s.conn i).channel.status = .kAdded :=
  closing_deregisters (standing_of_run h hi) hlive

/-- A paused connection is closed with output to write. -/
theorem close_deregisters_iff_pending :
    ∃ calls s, Run (LoopOp.exec (β := ℕ)) Scheduled EventLoop.start calls s ∧
      (Deregisters (kernelEntry (lifeTrace (traceOf calls) 0 (s.life 0))) (s.conn 0).channel.fd
        (handleClose (s.conn 0)) ↔ (s.conn 0).channel.status = .kAdded) ∧
      ctls (handleClose (s.conn 0)).trace = [(5, .del), (5, .close)] := by
  have hrun : Run (LoopOp.exec (β := ℕ)) Scheduled EventLoop.start _ _ :=
    run_replay [.newConnection 5 (some 0) (some 1) none, .swapFunctors,
      .runFunctor (.ok 0) (.ok 0), .request 0 (.send true [1, 2, 3] (.ok 2) (.ok 0)),
      .request 0 (.stopRead true)] (by decide +kernel)
  exact ⟨_, _, hrun, close_deregisters_iff hrun (by decide +kernel) (by decide +kernel),
    by decide +kernel⟩

/-- A paused connection without output is closed: its descriptor is added to the poller, then
closed, then deleted. -/
theorem close_adds_paused :
    ¬∀ (calls : List (LoopCall ℕ)) (s : EventLoop ℕ),
      Run LoopOp.exec Scheduled EventLoop.start calls s → ∀ i < s.made, (s.conn i).Live →
        Deregisters (kernelEntry (lifeTrace (traceOf calls) i (s.life i))) (s.conn i).channel.fd
          (handleClose (s.conn i)) := by
  intro h
  have hrun : Run (LoopOp.exec (β := ℕ)) Scheduled EventLoop.start _ _ :=
    run_replay [.newConnection 5 (some 0) (some 1) none, .swapFunctors,
      .runFunctor (.ok 0) (.ok 0), .request 0 (.stopRead true)] (by decide +kernel)
  have hclean := h _ _ hrun 0 (by decide +kernel) (by decide +kernel)
  have hadded := hclean.added kNoneEvent
  revert hadded
  decide +kernel

end Cannet.Net
