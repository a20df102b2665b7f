import Cannet.Net.Loop.Requests
import Cannet.Net.Loop.Standing

/-!
# Where the connections of a loop are, in its runs

Over the runs of a loop, too, a live connection is in `connections_`, under its descriptor, and the
others are in `connectionsPool` (`placed_of_run`), when the sockets that are given to
`createConnection` are not those of live connections. What a call on a connection moves is read
off its trace (`Moves`): a connection that it closes, and nothing else.
-/

namespace Cannet.Net

open Foundations EventLoop TcpConnection

variable {β : Type}

/-- The descriptor under which the connection returned to the pool is filed. -/
def Effect.recycled : Effect β → Option ℤ
  | .recycle fd => some fd
  | _ => none

/-- The socket of a `createConnection` that is run is not that of a live connection. -/
def LoopFunctor.Accepts (s : EventLoop β) : LoopFunctor β → Prop
  | createConnection sockFd .. => ∀ i < s.made, (s.conn i).Live → (s.conn i).sockFd ≠ sockFd
  | connection .. => True

instance (s : EventLoop β) : DecidablePred (LoopFunctor.Accepts s)
  | .createConnection sockFd .. =>
    inferInstanceAs (Decidable (∀ i < s.made, (s.conn i).Live → (s.conn i).sockFd ≠ sockFd))
  | .connection .. => isTrue trivial

/-- A step does not open a connection for a socket that is in use. -/
def AcceptsFree (call : LoopCall β) : Prop := ∀ functor ∈ called call, functor.Accepts call.before

instance : DecidablePred (AcceptsFree (β := β)) := fun _ =>
  inferInstanceAs (Decidable (∀ _ ∈ _, _))

/-! ## What a call moves -/

/-- A call that takes `c₀` to `c` by `es` sends it to the pool if it closes it, and moves nothing
else. -/
structure Moves (c₀ : TcpConnection β) (es : List (Effect β)) (c : TcpConnection β) : Prop where
  sockFd : c.sockFd = c₀.sockFd
  live : c.Live → c₀.Live
  recycled : es.filterMap Effect.recycled = if c₀.Live ∧ ¬c.Live then [c₀.sockFd] else []

namespace Moves

variable {c₀ c : TcpConnection β} {es es' : List (Effect β)}

theorem refl (c : TcpConnection β) : Moves c [] c := by
  refine ⟨rfl, id, ?_⟩
  rw [if_neg fun h => h.2 h.1]
  rfl

theorem quiet (h : Moves c₀ es c) (hes : es'.filterMap Effect.recycled = []) :
    Moves c₀ (es ++ es') c := by
  refine ⟨h.sockFd, h.live, ?_⟩
  rw [List.filterMap_append, hes, List.append_nil]
  exact h.recycled

theorem disconnecting (h : Moves c₀ es c) (hlive : c.Live) :
    Moves c₀ es { c with state := .kDisconnecting } := by
  have hlive' : TcpConnection.Live { c with state := .kDisconnecting } := .inr rfl
  refine ⟨h.sockFd, fun _ => h.live hlive, ?_⟩
  rw [h.recycled, if_neg fun hc => hc.2 hlive, if_neg fun hc => hc.2 hlive']

theorem frame (c₀ : TcpConnection β) : CallFrame (Moves c₀) where
  emit e he es c h := by
    refine h.quiet ?_
    cases e <;> first | rfl | cases he
  channel _ _ _ h := ⟨h.sockFd, h.live, h.recycled⟩
  inputBuffer _ _ _ h := ⟨h.sockFd, h.live, h.recycled⟩
  outputBuffer _ _ _ h := ⟨h.sockFd, h.live, h.recycled⟩
  sendFile _ _ _ h := ⟨h.sockFd, h.live, h.recycled⟩
  reading _ _ _ h := ⟨h.sockFd, h.live, h.recycled⟩

theorem shutdown (onLoop : Bool) : (shutdown (β := β) onLoop).Keeps (Moves c₀) := by
  intro es c h
  rw [shutdown_apply]
  have hquiet : Moves c₀ (es ++ c.shutdownCalls onLoop) c := by
    refine h.quiet ?_
    unfold shutdownCalls halfClose
    split
    · cases onLoop
      · rfl
      · cases c.channel.isWriting <;> rfl
    · rfl
  rw [shuttingDown]
  split
  · rename_i hs
    exact hquiet.disconnecting (.inl hs)
  · exact hquiet

theorem forceClose : (forceClose (β := β)).Keeps (Moves c₀) := by
  intro es c h
  rw [forceClose_apply]
  have hquiet : Moves c₀ (es ++ c.forceCloseCalls) c := by
    refine h.quiet ?_
    unfold forceCloseCalls
    split <;> rfl
  rw [forceClosing]
  split
  · rename_i hlive
    exact hquiet.disconnecting hlive
  · exact hquiet

theorem request [Inhabited β] (r : Request β) (c : TcpConnection β) :
    Moves c (r.call c).trace (r.call c).state :=
  (frame c).keeps_request shutdown forceClose r [] c (.refl c)

/-! ### Calls that may close -/

theorem handleClose {c : TcpConnection β} (hfd : c.channel.fd = c.sockFd)
    (hok : (handleClose c).val = .ok ()) :
    Moves c (TcpConnection.handleClose c).trace (TcpConnection.handleClose c).state := by
  have ho := handleClose_outcome c
  generalize TcpConnection.handleClose c = o at ho hok ⊢
  cases ho with
  | refused => cases hok
  | unset => cases hok
  | closed hlive =>
    have hdead : ¬c.closed.Live := by simp [Live, TcpConnection.closed]
    refine ⟨rfl, fun h => absurd h hdead, ?_⟩
    rw [if_pos ⟨hlive, hdead⟩, ← hfd, closeCalls, Channel.removeCalls]
    split <;> rfl

theorem handleRead [Inhabited β] {c : TcpConnection β} (hwf : c.inputBuffer.Wf)
    (hfd : c.channel.fd = c.sockFd) (r : ReadRet β) (hok : (handleRead r c).val = .ok ()) :
    Moves c (TcpConnection.handleRead r c).trace (TcpConnection.handleRead r c).state := by
  have ho := handleRead_outcome hwf r
  generalize TcpConnection.handleRead r c = o at ho hok ⊢
  cases ho with
  | failed e => exact (refl c).quiet rfl
  | ended b _ =>
    have hclose := handleClose (c := { c with inputBuffer := b }) hfd hok
    exact ⟨hclose.sockFd, hclose.live, hclose.recycled⟩
  | received data _ _ b _ =>
    have hquiet : Moves c [c.readvCall, .messageCallback] c := (refl c).quiet rfl
    exact ⟨hquiet.sockFd, hquiet.live, hquiet.recycled⟩
  | unset => cases hok

variable [Inhabited β]

theorem callback {es : List (Effect β)} {c : TcpConnection β} (h : Standing es c)
    (callback : ChannelCallback β) (hok : (callback.call c).val = .ok ()) :
    Moves c (callback.call c).trace (callback.call c).state := by
  cases callback with
  | closeCallback => exact handleClose h.fd hok
  | errorCallback => exact (frame c).keeps_handleError [] c (.refl c)
  | readCallback r => exact handleRead h.input h.fd r hok
  | writeCallback w => exact (frame c).output.keeps_handleWrite w [] c (.refl c)

theorem functor {es : List (Effect β)} {c : TcpConnection β} (h : Standing es c) (w f : SysRet)
    (g : Functor β) (hok : (g.call w f c).val = .ok ()) :
    Moves c (g.call w f c).trace (g.call w f c).state := by
  by_cases hclosing : g = .forceCloseInLoop
  · subst hclosing
    rw [Functor.call, forceCloseInLoop, Act.get_bind, Act.ite_apply] at hok ⊢
    split
    · rename_i hlive
      rw [if_pos hlive] at hok
      exact handleClose h.fd hok
    · exact refl c
  · exact (frame c).keeps_functor w f g hclosing [] c (.refl c)

end Moves

/-! ## What the loop does about it -/

namespace EventLoop

/-- What returns one connection to the pool. -/
theorem perform_of_recycled (i : ℕ) (es : List (Effect β)) (s : EventLoop β) {fd : ℤ}
    (h : es.filterMap Effect.recycled = [fd]) :
    (es.foldl (perform i) s).connectionsPool = s.connectionsPool ++ [s.connections fd] ∧
      (es.foldl (perform i) s).connections = Function.update s.connections fd none := by
  induction es generalizing s with
  | nil => cases h
  | cons e es ih =>
    rw [List.foldl_cons]
    cases e with
    | recycle fd' =>
      obtain ⟨rfl, hnone⟩ := List.cons.inj h
      have hquiet : ∀ e ∈ es, e.isRecycle = false := fun e he => by
        have hrecycled := List.filterMap_eq_nil_iff.1 hnone e he
        cases e <;> first | rfl | cases hrecycled
      exact perform_of_not_recycle i es _ hquiet
    | _ => exact ih _ h

/-- A call on a connection leaves the others as they are, and begins no life. -/
theorem onConnection_frame (i : ℕ) (x : Conn β Unit) (s : EventLoop β) :
    (onConnection i x s).state.life = s.life ∧
      (onConnection i x s).state.conn i = (x (s.conn i)).state ∧
        ∀ j, j ≠ i → (onConnection i x s).state.conn j = s.conn j := by
  obtain ⟨s', hs', hp⟩ := onConnection_spec i x s
  have hconn : s'.conn = Function.update s.conn i (x (s.conn i)).state := hp.conn
  rw [hs']
  refine ⟨hp.life, ?_, fun j hj => ?_⟩
  · rw [hconn, Function.update_self]
  · rw [hconn, Function.update_of_ne hj]

theorem made_onConnection (i : ℕ) (x : Conn β Unit) (s : EventLoop β) :
    (onConnection i x s).state.made = s.made := by
  obtain ⟨s', hs', hp⟩ := onConnection_spec i x s
  rw [hs']
  exact hp.made

end EventLoop

namespace Placed

variable {s s' : EventLoop β} {i : ℕ}

theorem congr (h : Placed s) (hconn : s'.conn = s.conn) (hmade : s'.made = s.made)
    (hpool : s'.connectionsPool = s.connectionsPool) (hheld : s'.connections = s.connections) :
    Placed s' := by
  unfold Placed
  rw [hconn, hmade, hpool, hheld]
  exact h

/-- **A call on a connection** leaves every connection in its place. -/
theorem onConnection (h : Placed s) (hi : i < s.made) {x : Conn β Unit}
    (hm : Moves (s.conn i) (x (s.conn i)).trace (x (s.conn i)).state) :
    Placed (EventLoop.onConnection i x s).state := by
  let s₁ : EventLoop β := { s with conn := Function.update s.conn i (x (s.conn i)).state }
  have hp : Performed s₁ (EventLoop.onConnection i x s).state i (x (s.conn i)).trace :=
    performed i _ s₁
  have hrecycled := hm.recycled
  by_cases hcloses : (s.conn i).Live ∧ ¬(x (s.conn i)).state.Live
  · rw [if_pos hcloses] at hrecycled
    obtain ⟨hpool, hheld⟩ := perform_of_recycled i _ s₁ hrecycled
    exact (h.released hi hcloses.1 hcloses.2).congr hp.conn hp.made hpool hheld
  · rw [if_neg hcloses] at hrecycled
    have hquiet : ∀ e ∈ (x (s.conn i)).trace, e.isRecycle = false := fun e he => by
      have hnone := List.filterMap_eq_nil_iff.1 hrecycled e he
      cases e <;> first | rfl | cases hnone
    obtain ⟨hpool, hheld⟩ := perform_of_not_recycle i _ s₁ hquiet
    have hlive : (x (s.conn i)).state.Live ↔ (s.conn i).Live :=
      ⟨hm.live, fun hlive => by_contra fun hdead => hcloses ⟨hlive, hdead⟩⟩
    exact (h.same hlive hm.sockFd).congr hp.conn hp.made hpool hheld

variable [Inhabited β] {es : List (LifeEffect (Effect β))}

/-- **A new socket** is given to a connection from the pool, or to a new one. -/
theorem createConnection (h : Placed s) {sockFd : ℤ}
    (hfree : ∀ i < s.made, (s.conn i).Live → (s.conn i).sockFd ≠ sockFd)
    (connectCallback messageCallback writeCompleteCallback : Option Callback) :
    Placed (EventLoop.createConnection sockFd connectCallback messageCallback
      writeCompleteCallback s).state := by
  rcases hpool : s.connectionsPool.getLast? with _ | _ | i
  · have hnew : (s.extended sockFd connectCallback messageCallback writeCompleteCallback).conn
        s.made = newConn sockFd connectCallback messageCallback writeCompleteCallback :=
      Function.update_self _ _ _
    obtain ⟨hstate, -⟩ := onConnection_connectEstablished (i := s.made)
      (s := s.extended sockFd connectCallback messageCallback writeCompleteCallback)
      (by rw [hnew]; rfl)
    rw [createConnection_new s _ _ _ _ hpool, Outcome.state_after, hstate, hnew]
    simp only [EventLoop.extended, Function.update_idem]
    exact h.extended hfree connectCallback messageCallback writeCompleteCallback (.inl rfl) rfl
  · exact absurd (List.mem_of_getLast? hpool) h.none_not_mem
  · have hreset : (s.reused sockFd i).conn i = (connectReset sockFd (s.conn i)).state :=
      Function.update_self _ _ _
    obtain ⟨hstate, -⟩ := onConnection_connectEstablished (i := i) (s := s.reused sockFd i)
      (by rw [hreset]; rfl)
    rw [createConnection_reuse s _ _ _ _ hpool, Outcome.state_after, hstate, hreset]
    simp only [EventLoop.reused, Function.update_idem]
    exact h.reused hfree hpool (.inl rfl) rfl

theorem runFunctor (h : Placed s) (hinv : LoopInvariant Standing es s) (w f : SysRet)
    (hfree : ∀ functor ∈ s.running.head?, functor.Accepts s)
    (hok : (EventLoop.runFunctor w f s).val = .ok ()) :
    Placed (EventLoop.runFunctor w f s).state := by
  cases hrunning : s.running with
  | nil =>
    rw [runFunctor_nil w f hrunning]
    exact h
  | cons functor rest =>
    rw [runFunctor_cons w f hrunning] at hok ⊢
    have haccepts := hfree functor (by simp [hrunning])
    cases functor with
    | createConnection sockFd connectCallback messageCallback writeCompleteCallback =>
      exact Placed.createConnection (s := { s with running := rest }) h haccepts _ _ _
    | connection i life g =>
      have hi : i < s.made := hinv.handles.functors i life g (by simp [hrunning])
      exact Placed.onConnection (s := { s with running := rest }) h hi
        (.functor (hinv.lives.current i hi) w f g hok)

/-- One step of the loop leaves every connection in its place. -/
theorem step (h : Placed s) (hinv : LoopInvariant Standing es s) (op : LoopOp β)
    {calls : List (LoopCall β)} (hop : Scheduled calls (Call.make LoopOp.exec op s))
    (hfree : AcceptsFree (Call.make LoopOp.exec op s)) (hok : (op.exec s).val = .ok ()) :
    Placed (op.exec s).state := by
  cases op with
  | newConnection | swapFunctors => exact h
  | handleEvent i callback =>
    exact h.onConnection hop.2 (.callback (hinv.lives.current i hop.2) callback hok)
  | request i r => exact h.onConnection hop (.request r _)
  | runFunctor w f => exact h.runFunctor hinv w f hfree hok

end Placed

/-- **Every connection is in its place**, after every run in which sockets are given to connections
only while no live one has them. -/
theorem placed_of_run [Inhabited β] {calls : List (LoopCall β)} {s : EventLoop β}
    (h : Run LoopOp.exec Scheduled EventLoop.start calls s)
    (hfree : ∀ call ∈ calls, AcceptsFree call) : Placed s := by
  have hboth : LoopInvariant Standing (traceOf calls) s ∧
      ((∀ call ∈ calls, AcceptsFree call) → Placed s) := by
    refine h.invariant (I := fun calls s => LoopInvariant Standing (traceOf calls) s ∧
      ((∀ call ∈ calls, AcceptsFree call) → Placed s)) ⟨.start Standing, fun _ => Placed.start⟩ ?_
    rintro calls s op ⟨hinv, hplace⟩ hop hok
    refine ⟨?_, fun hall => ?_⟩
    · rw [traceOf_append, traceOf_singleton]
      exact hinv.step standing_staged op hop hok
    · have hbefore := hplace fun call hcall => hall call (List.mem_append_left _ hcall)
      exact hbefore.step hinv op hop (hall _ (by simp)) hok
  exact hboth.2 hfree

end Cannet.Net
