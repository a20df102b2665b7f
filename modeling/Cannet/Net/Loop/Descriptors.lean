import Cannet.Foundations.Exchange
import Cannet.Net.Loop.Places

/-!
# The descriptors of a loop

A loop holds descriptors of two kinds: those of the sockets that wait in its queue for
`createConnection`, and those of its live connections. A step of the loop moves them from the one to
the other, and closes those of the connections it closes: nothing is lost and nothing is closed
twice (`EventLoop.exchange_step`), while every connection is in its place.
-/

namespace Cannet.Net

open Foundations EventLoop TcpConnection

variable {β : Type}

/-- The socket that a functor has been given. -/
def LoopFunctor.socket : LoopFunctor β → Option ℤ
  | createConnection sockFd .. => some sockFd
  | connection .. => none

/-- The sockets that wait for their connection, first come first. -/
def EventLoop.awaiting (s : EventLoop β) : List ℤ :=
  (s.running ++ s.functors).filterMap LoopFunctor.socket

/-- The descriptor that a connection is to close. -/
def TcpConnection.holds (c : TcpConnection β) : List ℤ := if c.Live then [c.sockFd] else []

/-- The descriptors of the live connections. -/
def EventLoop.inUse (s : EventLoop β) : List ℤ :=
  holdings (List.range s.made) fun i => (s.conn i).holds

/-- The descriptors of the loop. -/
def EventLoop.holds (s : EventLoop β) : List ℤ := s.awaiting ++ s.inUse

/-- The socket that a step hands to the loop. -/
def LoopOp.given : LoopOp β → List ℤ
  | newConnection sockFd .. => [sockFd]
  | _ => []

/-- The descriptor of a `close`. -/
def Effect.closedFd : Effect β → Option ℤ
  | .close fd => some fd
  | _ => none

/-- The descriptors closed. -/
def closedFds (es : List (LifeEffect (Effect β))) : List ℤ :=
  es.filterMap fun e => e.effect.closedFd

@[simp] theorem closedFds_append (es es' : List (LifeEffect (Effect β))) :
    closedFds (es ++ es') = closedFds es ++ closedFds es' := List.filterMap_append

theorem closedFds_tag (i life : ℕ) (es : List (Effect β)) :
    closedFds (es.map (LifeEffect.mk i life)) = es.filterMap Effect.closedFd := by
  rw [closedFds, List.filterMap_map]
  rfl

/-! ## One call -/

/-- What is returned to the pool is closed, and nothing else is. -/
def ClosesRecycled (es : List (Effect β)) (_ : TcpConnection β) : Prop :=
  es.filterMap Effect.closedFd = es.filterMap Effect.recycled

theorem ClosesRecycled.append {es es' : List (Effect β)} {c c' : TcpConnection β}
    (h : ClosesRecycled es c)
    (hes' : es'.filterMap Effect.closedFd = es'.filterMap Effect.recycled) :
    ClosesRecycled (es ++ es') c' := by
  rw [ClosesRecycled, List.filterMap_append, List.filterMap_append, h, hes']

theorem closesRecycled_frame : CallFrame (ClosesRecycled (β := β)) where
  emit e he es c h := by
    refine h.append ?_
    cases e <;> first | rfl | cases he
  channel _ _ _ h := h
  inputBuffer _ _ _ h := h
  outputBuffer _ _ _ h := h
  sendFile _ _ _ h := h
  reading _ _ _ h := h

theorem closesRecycled_handleClose : (handleClose (β := β)).Keeps ClosesRecycled := by
  intro es c h
  have ho := handleClose_outcome c
  generalize handleClose c = o at ho ⊢
  cases ho with
  | refused => exact h.append rfl
  | unset => exact h.append rfl
  | closed =>
    refine h.append ?_
    unfold closeCalls Channel.removeCalls
    split <;> rfl

/-- **A call closes what it returns to the pool**, whatever the call. -/
theorem closesRecycled [Inhabited β] : LifeInvariant (ClosesRecycled (β := β)) := by
  refine closesRecycled_frame.lifeInvariant (fun _ _ _ _ => rfl) (fun _ _ _ _ => rfl) ?_
    closesRecycled_handleClose ?_ ?_
  · intro es c h hok
    have ho := connectEstablished_outcome c
    generalize TcpConnection.connectEstablished c = o at ho hok ⊢
    cases ho with
    | refused => cases hok
    | unset => cases hok
    | opened => exact h.append rfl
  · intro onLoop es c h
    rw [shutdown_apply]
    refine h.append ?_
    unfold shutdownCalls halfClose
    split
    · cases onLoop
      · rfl
      · cases c.channel.isWriting <;> rfl
    · rfl
  · intro es c h
    rw [forceClose_apply]
    refine h.append ?_
    unfold forceCloseCalls
    split <;> rfl

/-- **A call on a connection** closes its descriptor if it ends its life. -/
theorem Moves.exchange {c c' : TcpConnection β} {es : List (Effect β)} (h : Moves c es c')
    (hcloses : ClosesRecycled es c') :
    Exchange c.holds [] (es.filterMap Effect.closedFd) c'.holds := by
  rw [hcloses, h.recycled]
  unfold TcpConnection.holds
  rw [h.sockFd]
  by_cases hlive : c.Live
  · rw [if_pos hlive]
    by_cases hstays : c'.Live
    · rw [if_pos hstays, if_neg fun hends => hends.2 hstays]
      exact .refl _
    · rw [if_neg hstays, if_pos ⟨hlive, hstays⟩]
      exact .release (List.Perm.refl _)
  · rw [if_neg hlive, if_neg fun hstays => hlive (h.live hstays), if_neg fun hends => hlive hends.1]
    exact .refl _

/-! ## The loop -/

namespace EventLoop

variable {s s' : EventLoop β} {i : ℕ}

theorem awaiting_append (l l' : List (LoopFunctor β)) :
    (l ++ l').filterMap LoopFunctor.socket =
      l.filterMap LoopFunctor.socket ++ l'.filterMap LoopFunctor.socket := List.filterMap_append

/-- What a call on a connection queues waits for no socket. -/
theorem awaiting_onConnection (i : ℕ) (x : Conn β Unit) (s : EventLoop β) :
    (onConnection i x s).state.awaiting = s.awaiting := by
  obtain ⟨s', hs', hp⟩ := onConnection_spec i x s
  have hrunning : s'.running = s.running := hp.running
  have hqueued : ∀ l : List (Functor β),
      (l.map (LoopFunctor.connection i (s.life i))).filterMap LoopFunctor.socket = [] :=
    fun l => by
      rw [List.filterMap_map]
      exact List.filterMap_eq_nil_iff.2 fun _ _ => rfl
  have hfunctors := hp.functors
  simp only at hfunctors
  rw [hs', awaiting, awaiting, hrunning, hfunctors, ← List.append_assoc,
    awaiting_append _ (List.map _ _), hqueued, List.append_nil]

/-- **A call on a connection** closes what it must. -/
theorem exchange_onConnection {x : Conn β Unit} (hi : i < s.made) (hx : x.Keeps ClosesRecycled)
    (hmoves : Moves (s.conn i) (x (s.conn i)).trace (x (s.conn i)).state) :
    Exchange s.holds [] (closedFds (onConnection i x s).trace)
      (onConnection i x s).state.holds := by
  obtain ⟨-, hself, hothers⟩ := onConnection_frame i x s
  have hmade := made_onConnection i x s
  have hcall := hmoves.exchange (hx [] (s.conn i) rfl)
  rw [holds, holds, awaiting_onConnection, inUse, inUse, hmade]
  have hclosed : closedFds (onConnection i x s).trace =
      (x (s.conn i)).trace.filterMap Effect.closedFd := closedFds_tag i (s.life i) _
  have huse : Exchange (holdings (List.range s.made) fun j => (s.conn j).holds) []
      ((x (s.conn i)).trace.filterMap Effect.closedFd)
      (holdings (List.range s.made) fun j => ((onConnection i x s).state.conn j).holds) := by
    refine .party (i := i) ?_ List.nodup_range (List.mem_range.2 hi) fun j hj => ?_
    · simp only [hself]
      exact hcall
    · simp only [hothers j hj]
  rw [hclosed]
  simpa using huse.beside s.awaiting []

theorem closedFds_connectEstablished (i : ℕ) (s : EventLoop β) :
    closedFds (onConnection i TcpConnection.connectEstablished s).trace = [] := by
  have hclosed : closedFds (onConnection i TcpConnection.connectEstablished s).trace =
      (TcpConnection.connectEstablished (s.conn i)).trace.filterMap Effect.closedFd :=
    closedFds_tag i (s.life i) _
  rw [hclosed]
  have ho := connectEstablished_outcome (s.conn i)
  generalize TcpConnection.connectEstablished (s.conn i) = o at ho ⊢
  cases ho <;> rfl

/-- A connection that has been opened for a socket holds its descriptor. -/
theorem exchange_opened {fd : ℤ} (hawaiting : s'.awaiting = s.awaiting)
    (hothers : ∀ j, j ≠ i → s'.conn j = s.conn j) (hself : (s'.conn i).holds = [fd])
    (hmade : s'.made = s.made ∧ i < s.made ∧ (s.conn i).holds = [] ∨
      s'.made = s.made + 1 ∧ i = s.made) : Exchange s.holds [fd] [] s'.holds := by
  have huse : Exchange s.inUse [fd] [] s'.inUse := by
    rcases hmade with ⟨hmade, hi, hidle⟩ | ⟨hmade, rfl⟩
    · rw [inUse, inUse, hmade]
      refine .party (i := i) ?_ List.nodup_range (List.mem_range.2 hi) fun j hj => ?_
      · simp only [hself, hidle]
        exact .receive [] [fd]
      · simp only [hothers j hj]
    · have hbefore : (holdings (List.range s.made) fun j => (s'.conn j).holds) = s.inUse :=
        holdings_congr fun j hj => by rw [hothers j (Nat.ne_of_lt (List.mem_range.1 hj))]
      rw [inUse, inUse, hmade, List.range_succ, holdings_append, hbefore, holdings_singleton, hself]
      exact (Exchange.receive s.inUse [fd]).congr (List.Perm.refl _) List.perm_append_comm
  rw [holds, holds, hawaiting]
  simpa using huse.beside s.awaiting []

variable [Inhabited β]

/-- **`createConnection`** puts a descriptor to use, and closes none. -/
theorem exchange_createConnection (h : Placed s) (sockFd : ℤ)
    (connectCallback messageCallback writeCompleteCallback : Option Callback) :
    Exchange s.holds [sockFd]
      (closedFds (createConnection sockFd connectCallback messageCallback writeCompleteCallback
        s).trace)
      (createConnection sockFd connectCallback messageCallback writeCompleteCallback
        s).state.holds := by
  rcases hpool : s.connectionsPool.getLast? with _ | _ | i
  · let s₁ := s.extended sockFd connectCallback messageCallback writeCompleteCallback
    have hnew : s₁.conn s.made =
        newConn sockFd connectCallback messageCallback writeCompleteCallback :=
      Function.update_self _ _ _
    obtain ⟨hstate, -⟩ := onConnection_connectEstablished (i := s.made) (s := s₁)
      (by rw [hnew]; rfl)
    rw [createConnection_new s _ _ _ _ hpool, Outcome.trace_after, closedFds_append,
      closedFds_connectEstablished, Outcome.state_after, hstate, hnew]
    refine exchange_opened (i := s.made) rfl (fun j hj => ?_) ?_ (.inr ⟨rfl, rfl⟩)
    · exact (Function.update_of_ne hj _ _).trans (Function.update_of_ne hj _ _)
    · simp only [Function.update_self]
      rfl
  · exact absurd (List.mem_of_getLast? hpool) h.none_not_mem
  · obtain ⟨j, hj, hi, hdead⟩ := h.last_spare hpool
    obtain rfl := Option.some.inj hj
    let s₁ := s.reused sockFd i
    have hreset : s₁.conn i = (connectReset sockFd (s.conn i)).state :=
      Function.update_self _ _ _
    obtain ⟨hstate, -⟩ := onConnection_connectEstablished (i := i) (s := s₁)
      (by rw [hreset]; rfl)
    rw [createConnection_reuse s _ _ _ _ hpool, Outcome.trace_after, closedFds_append,
      closedFds_connectEstablished, Outcome.state_after, hstate, hreset]
    refine exchange_opened (i := i) rfl (fun j hj => ?_) ?_ (.inl ⟨rfl, hi, if_neg hdead⟩)
    · exact (Function.update_of_ne hj _ _).trans (Function.update_of_ne hj _ _)
    · simp only [Function.update_self]
      rfl

omit [Inhabited β] in
theorem awaiting_of_running {rest : List (LoopFunctor β)} {functor : LoopFunctor β}
    (h : s.running = functor :: rest) :
    s.awaiting = functor.socket.toList ++ awaiting { s with running := rest } := by
  rw [awaiting, h, List.cons_append, List.filterMap_cons]
  cases functor.socket <;> rfl

theorem exchange_runFunctor (h : Placed s) {es : List (LifeEffect (Effect β))}
    (hinv : LoopInvariant Standing es s) (w f : SysRet)
    (hok : (EventLoop.runFunctor w f s).val = .ok ()) :
    Exchange s.holds [] (closedFds (EventLoop.runFunctor w f s).trace)
      (EventLoop.runFunctor w f s).state.holds := by
  cases hrunning : s.running with
  | nil =>
    rw [runFunctor_nil w f hrunning]
    exact .refl _
  | cons functor rest =>
    have hawaiting := awaiting_of_running hrunning
    rw [runFunctor_cons w f hrunning] at hok ⊢
    cases functor with
    | createConnection sockFd connectCallback messageCallback writeCompleteCallback =>
      have hcreate := exchange_createConnection (s := { s with running := rest }) h sockFd
        connectCallback messageCallback writeCompleteCallback
      have hheld : s.holds = [sockFd] ++ EventLoop.holds { s with running := rest } := by
        rw [EventLoop.holds, hawaiting]
        rfl
      rw [hheld]
      exact hcreate.of_held
    | connection i life g =>
      have hi : i < s.made := hinv.handles.functors i life g (by simp [hrunning])
      have hrest : s.holds = EventLoop.holds { s with running := rest } := by
        rw [EventLoop.holds, hawaiting]
        rfl
      rw [hrest]
      exact exchange_onConnection hi (closesRecycled.functor w f g)
        (.functor (hinv.lives.current i hi) w f g hok)

/-- **One step of the loop**: what it is handed it keeps, until it closes it. -/
theorem exchange_step (h : Placed s) {es : List (LifeEffect (Effect β))}
    (hinv : LoopInvariant Standing es s) (op : LoopOp β) {calls : List (LoopCall β)}
    (hop : Scheduled calls (Call.make LoopOp.exec op s)) (hok : (op.exec s).val = .ok ()) :
    Exchange s.holds op.given (closedFds (op.exec s).trace) (op.exec s).state.holds := by
  cases op with
  | newConnection sockFd connectCallback messageCallback writeCompleteCallback =>
    have hawaiting : (EventLoop.newConnection sockFd connectCallback messageCallback
        writeCompleteCallback s).state.awaiting = s.awaiting ++ [sockFd] := by
      change (s.running ++ (s.functors ++ [_])).filterMap LoopFunctor.socket = _
      rw [← List.append_assoc, awaiting_append]
      rfl
    have hheld : (EventLoop.newConnection sockFd connectCallback messageCallback
        writeCompleteCallback s).state.holds = s.awaiting ++ [sockFd] ++ s.inUse := by
      rw [EventLoop.holds, hawaiting]
      rfl
    have hreceive : Exchange s.awaiting [sockFd] [] (s.awaiting ++ [sockFd]) :=
      (Exchange.receive _ _).congr (List.Perm.refl _) List.perm_append_comm
    have hall := hreceive.beside [] s.inUse
    rw [List.nil_append, List.nil_append] at hall
    exact hheld ▸ hall
  | swapFunctors =>
    have hrunning : s.running = [] := List.isEmpty_iff.1 hop
    have hawaiting : (EventLoop.swapFunctors s).state.awaiting = s.awaiting := by
      change (s.functors ++ []).filterMap LoopFunctor.socket = _
      rw [awaiting, hrunning, List.append_nil, List.nil_append]
    have hheld : (EventLoop.swapFunctors s).state.holds = s.holds := by
      rw [EventLoop.holds, hawaiting]
      rfl
    exact hheld ▸ Exchange.refl _
  | handleEvent i callback =>
    exact exchange_onConnection hop.2 (closesRecycled.handleEvent callback)
      (.callback (hinv.lives.current i hop.2) callback hok)
  | request i r => exact exchange_onConnection hop (closesRecycled.request r) (.request r _)
  | runFunctor w f => exact exchange_runFunctor h hinv w f hok

end EventLoop

end Cannet.Net
