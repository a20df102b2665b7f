import Cannet.Net.Loop.Closed
import Cannet.Net.Loop.Queued

/-!
# What a closed connection leaves in the queue

From another thread `send`, `startRead` and `stopRead` queue a functor on a closed connection too.
By the time it is called, the object may have been reset for another socket: `startReadInLoop` and
`stopReadInLoop` then act on the connection in use. The functor of `send` reads a string that is
gone. So a functor that a call on a closed connection has queued is followed to the step that calls
it, whatever its connection is by then (`Leftover`), and it has to do nothing there. With that,
closed connections are inert in exactly the runs that spare them (`closed_inert`).
-/

namespace Cannet.Net

open Foundations

variable {β : Type}

/-! ## Leftover functors -/

/-- The step is a public function of a closed connection, called by its user. -/
def onClosedConnection (call : LoopCall β) : Bool :=
  match call.input with
  | .request i _ => decide ((call.before.conn i).state = .kDisconnected)
  | _ => false

/-- The functor at the front of the queue after `calls` was queued by such a step. -/
def leftoverNext (calls : List (LoopCall β)) : Bool :=
  (waitingFunctors onClosedConnection calls).head?.any Prod.snd

/-- The step after `calls` calls `functor`, which a call on a closed connection has queued. -/
def Leftover (calls : List (LoopCall β)) (call : LoopCall β) (functor : LoopFunctor β) : Prop :=
  called call = some functor ∧ leftoverNext calls = true

/-- Whether a functor that starts or stops reading finds nothing to do. -/
def Functor.isIdle (c : TcpConnection β) : Functor β → Bool
  | .startReadInLoop => c.reading && c.channel.isReading
  | .stopReadInLoop => !c.reading && !c.channel.isReading
  | _ => false

def LoopFunctor.isIdle (s : EventLoop β) : LoopFunctor β → Bool
  | createConnection .. => false
  | connection i _ g => g.isIdle (s.conn i)

/-- The functor of a call on a closed connection is one that starts or stops reading, on a
connection that does or does not read already. -/
def SparesLater (calls : List (LoopCall β)) (call : LoopCall β) : Prop :=
  ∀ functor ∈ called call, leftoverNext calls = true → functor.isIdle call.before = true

instance (calls : List (LoopCall β)) (call : LoopCall β) : Decidable (SparesLater calls call) :=
  inferInstanceAs (Decidable (∀ _ ∈ _, _ → _))

/-- The step spares the closed connections, and what comes after them. -/
def Spares (calls : List (LoopCall β)) (call : LoopCall β) : Prop :=
  SparesClosed call ∧ SparesLater calls call

instance (calls : List (LoopCall β)) (call : LoopCall β) : Decidable (Spares calls call) :=
  inferInstanceAs (Decidable (_ ∧ _))

/-- A step does nothing: it returns, without a system call, and leaves the interest set and every
connection as they were. -/
structure Uneventful (s : EventLoop β)
    (o : Outcome Abort (LifeEffect (Effect β)) (EventLoop β) Unit) : Prop where
  returned : o.val = .ok ()
  calls : ∀ e ∈ o.trace, e.effect.isSystemCall = false
  interest : ∀ set, interestAfter o.trace set = set
  conn : o.state.conn = s.conn

/-- A step on a closed connection touches nothing, and a functor that a call on a closed connection
has queued does nothing. -/
def TouchesNothing (calls : List (LoopCall β)) (call : LoopCall β) : Prop :=
  (∀ i, OnClosed call i → Inert call.before call.outcome i) ∧
    ∀ functor, Leftover calls call functor → Uneventful call.before call.outcome

/-! ## What a call on a closed connection queues -/

def Functor.isRead : Functor β → Bool
  | .startReadInLoop | .stopReadInLoop => true
  | _ => false

/-- The functors of `send`, `startRead` and `stopRead`. -/
def Functor.isLeftover : Functor β → Bool
  | .sendInLoop .byReference => true
  | g => g.isRead

theorem Effect.queued_of_isSystemCall {e : Effect β} (h : e.isSystemCall = true) :
    e.queued = none := by
  cases e <;> first | rfl | cases h

namespace TcpConnection

variable [Inhabited β] {c : TcpConnection β}

/-- An idle functor does nothing. -/
theorem functor_idle (w f : SysRet) {g : Functor β} (hidle : g.isIdle c = true) :
    g.call w f c = ⟨.ok (), c, []⟩ := by
  cases g with
  | startReadInLoop =>
    have hreads : c.reading = true ∧ c.channel.isReading = true := Bool.and_eq_true_iff.1 hidle
    rw [Functor.call, startReadInLoop, Act.get_bind, Act.ite_apply, if_neg (by simp [hreads])]
    rfl
  | stopReadInLoop =>
    have hstopped : c.reading = false ∧ c.channel.isReading = false := by
      simpa [Functor.isIdle] using hidle
    rw [Functor.call, stopReadInLoop, Act.get_bind, Act.ite_apply, if_neg (by simp [hstopped])]
    rfl
  | _ => cases hidle

/-- One that starts or stops reading and is not idle goes to the poller. -/
theorem readInLoop_touches (w f : SysRet) {g : Functor β} (hread : g.isRead = true)
    (hidle : g.isIdle c = false) :
    ∃ c' : TcpConnection β, ∃ e : Effect β, g.call w f c = ⟨.ok (), c', [e]⟩ ∧
      e.isSystemCall = true := by
  cases g with
  | startReadInLoop => exact startReadInLoop_touches (by simpa [Functor.isIdle] using hidle)
  | stopReadInLoop =>
    refine stopReadInLoop_touches ?_
    rw [Functor.isIdle] at hidle
    cases hreading : c.reading <;> simp_all
  | _ => cases hread

/-- A leftover functor that is not idle fails, or makes a system call. -/
theorem leftover_touches (w f : SysRet) {g : Functor β} (hleft : g.isLeftover = true)
    (hidle : g.isIdle c = false) :
    (g.call w f c).val ≠ .ok () ∨ ∃ e ∈ (g.call w f c).trace, e.isSystemCall = true := by
  by_cases hread : g.isRead = true
  · obtain ⟨c', e, hcall, he⟩ := readInLoop_touches w f hread hidle
    rw [hcall]
    exact .inr ⟨e, List.mem_singleton_self e, he⟩
  · cases g with
    | sendInLoop message =>
      cases message with
      | byValue message => cases hleft
      | byReference => exact .inl fun h => by cases h
    | _ => exact absurd hleft hread

theorem readInLoop_queues (w f : SysRet) {g : Functor β} (hread : g.isRead = true) :
    (g.call w f c).trace.filterMap Effect.queued = [] := by
  cases hidle : g.isIdle c with
  | true => rw [functor_idle w f hidle, List.filterMap_nil]
  | false =>
    obtain ⟨c', e, hcall, he⟩ := readInLoop_touches w f hread hidle
    rw [hcall, List.filterMap_cons_none (Effect.queued_of_isSystemCall he), List.filterMap_nil]

/-- What a call on a closed connection queues is leftover. -/
theorem request_queues (hs : c.state = .kDisconnected) (r : Request β) :
    ∀ g ∈ (r.call c).trace.filterMap Effect.queued, g.isLeftover = true := by
  have hone : ∀ {g : Functor β} {v : Except Abort Unit}, g.isLeftover = true →
      ∀ g' ∈ (⟨v, c, [.queueInLoop g]⟩ : Outcome Abort (Effect β) (TcpConnection β) Unit).trace
        |>.filterMap Effect.queued, g'.isLeftover = true := by
    intro g v hg g' hg'
    rw [List.mem_singleton.1 hg']
    exact hg
  have hread : ∀ {g : Functor β} (onLoop : Bool), g.isRead = true → g.isLeftover = true →
      ∀ g' ∈ (runInLoop onLoop g (g.call (.ok 0) (.ok 0)) c).trace.filterMap Effect.queued,
        g'.isLeftover = true := by
    intro g onLoop hg hleft
    cases onLoop with
    | false => exact hone hleft
    | true =>
      intro g' hg'
      rw [runInLoop, if_pos rfl, readInLoop_queues _ _ hg] at hg'
      cases hg'
  cases r with
  | send onLoop message w f =>
    have hnot : ¬c.state = .kConnected := by simp [hs]
    rw [Request.call, send, Act.get_bind, Act.ite_apply, if_neg hnot, runInLoop, Act.ite_apply]
    split
    · rw [sendInLoop_closed w f _ _ hs]
      exact List.forall_mem_nil _
    · exact hone rfl
  | shutdown onLoop =>
    rw [Request.call, shutdown_apply, shutdownCalls, if_neg (by simp [hs])]
    exact List.forall_mem_nil _
  | forceClose =>
    rw [Request.call, forceClose_apply, forceCloseCalls, if_neg (by simp [hs])]
    exact List.forall_mem_nil _
  | startRead onLoop => exact hread onLoop rfl rfl
  | stopRead onLoop => exact hread onLoop rfl rfl
  | setTcpNoDelay on => exact List.forall_mem_nil _
  | setSendFile file => exact List.forall_mem_nil _

end TcpConnection

/-! ## Any run -/

section Steps

open EventLoop TcpConnection

variable {s : EventLoop β} {i : ℕ} {x : Conn β Unit}

theorem Uneventful.of_idle (h : x (s.conn i) = ⟨.ok (), s.conn i, []⟩) :
    Uneventful s (onConnection i x s) := by
  have ho : onConnection i x s =
      ⟨.ok (), { s with conn := Function.update s.conn i (s.conn i) }, []⟩ := by
    rw [onConnection, h]
    rfl
  rw [ho]
  exact ⟨rfl, List.forall_mem_nil _, fun _ => rfl, Function.update_eq_self _ _⟩

theorem Uneventful.not_of_touches
    (h : (x (s.conn i)).val ≠ .ok () ∨ ∃ e ∈ (x (s.conn i)).trace, e.isSystemCall = true) :
    ¬Uneventful s (onConnection i x s) := by
  obtain ⟨s', hs', -⟩ := onConnection_spec i x s
  rw [hs']
  intro hidle
  rcases h with hval | ⟨e, he, hsys⟩
  · exact hval hidle.returned
  · have hquiet : e.isSystemCall = false :=
      hidle.calls (LifeEffect.mk i (s.life i) e) (List.mem_map_of_mem he)
    rw [hquiet] at hsys
    cases hsys

/-- The functors in a labelled queue that are leftover. -/
def LeftoversQueued (queue : List (LoopFunctor β × Bool)) : Prop :=
  ∀ functor, (functor, true) ∈ queue →
    ∃ i life g, functor = .connection i life g ∧ g.isLeftover = true

variable [Inhabited β]

theorem LeftoversQueued.step (s : EventLoop β) (op : LoopOp β) :
    LeftoversQueued (queuedBy onClosedConnection (Call.make LoopOp.exec op s)) := by
  intro functor hmem
  obtain ⟨queued, hqueued, heq⟩ := List.mem_map.1 hmem
  obtain ⟨rfl, hclosed⟩ := Prod.mk.inj heq
  cases op with
  | request i r =>
    have hs : (s.conn i).state = .kDisconnected := of_decide_eq_true hclosed
    obtain ⟨_, hmem, hfunctor⟩ := List.mem_filterMap.1 hqueued
    obtain ⟨e, he, rfl⟩ := List.mem_map.1 hmem
    obtain ⟨g, hg, rfl⟩ := Option.map_eq_some_iff.1 hfunctor
    exact ⟨i, s.life i, g, rfl, request_queues hs r g (List.mem_filterMap.2 ⟨e, he, hg⟩)⟩
  | _ => cases hclosed

/-- Leftover functors are of calls that have a closed connection queue something. -/
theorem leftovers_of_run {calls : List (LoopCall β)}
    (h : Run LoopOp.exec Scheduled EventLoop.start calls s) :
    LeftoversQueued (waitingFunctors onClosedConnection calls) := by
  refine h.invariant
    (I := fun calls _ => LeftoversQueued (waitingFunctors onClosedConnection calls))
    (fun _ hmem => absurd hmem List.not_mem_nil) ?_
  intro calls s op hleft _ _ functor hmem
  rw [waitingFunctors_snoc] at hmem
  rcases List.mem_append.1 hmem with hmem | hmem
  · refine hleft functor ?_
    rw [afterCalled] at hmem
    split at hmem
    · exact List.mem_of_mem_tail hmem
    · exact hmem
  · exact LeftoversQueued.step s op functor hmem

/-- The leftover functor that a step calls. -/
theorem leftover_called {calls : List (LoopCall β)}
    (h : Run LoopOp.exec Scheduled EventLoop.start calls s) {op : LoopOp β}
    {functor : LoopFunctor β} (hleft : Leftover calls (Call.make LoopOp.exec op s) functor) :
    ∃ w f rest i life g, op = .runFunctor w f ∧ s.running = functor :: rest ∧
      functor = .connection i life g ∧ g.isLeftover = true := by
  obtain ⟨hcalled, hnext⟩ := hleft
  cases op with
  | runFunctor w f =>
    obtain ⟨rest, hrunning⟩ := List.head?_eq_some_iff.1 (show s.running.head? = _ from hcalled)
    obtain ⟨⟨front, mark⟩, hhead, hmark⟩ := (Option.any_eq_true _ _).1 hnext
    obtain rfl : mark = true := hmark
    have hwaiting := waiting_of_run onClosedConnection h
    have hfront : front = functor := by
      have hmap := congrArg List.head? hwaiting
      rw [List.head?_map, hhead, hrunning] at hmap
      exact Option.some.inj hmap
    subst hfront
    obtain ⟨i, life, g, hfunctor, hg⟩ :=
      leftovers_of_run h front (List.mem_of_mem_head? (by rw [hhead]; rfl))
    exact ⟨w, f, rest, i, life, g, rfl, hrunning, hfunctor, hg⟩
  | _ => cases hcalled

/-- **A leftover functor does nothing** exactly when it is idle. -/
theorem uneventful_iff {calls : List (LoopCall β)}
    (h : Run LoopOp.exec Scheduled EventLoop.start calls s) {op : LoopOp β}
    {functor : LoopFunctor β} (hleft : Leftover calls (Call.make LoopOp.exec op s) functor) :
    Uneventful s (op.exec s) ↔ functor.isIdle s = true := by
  obtain ⟨w, f, rest, i, life, g, rfl, hrunning, rfl, hg⟩ := leftover_called h hleft
  have hrest : Uneventful { s with running := rest }
      (callFunctor w f (.connection i life g) { s with running := rest }) ↔
        g.isIdle (s.conn i) = true := by
    cases hidle : g.isIdle (s.conn i) with
    | true => exact iff_of_true (.of_idle (functor_idle w f hidle)) rfl
    | false =>
      exact iff_of_false (Uneventful.not_of_touches (leftover_touches w f hg hidle))
        Bool.false_ne_true
  rw [LoopOp.exec, runFunctor_cons w f hrunning, LoopFunctor.isIdle, ← hrest]
  exact ⟨fun h => ⟨h.returned, h.calls, h.interest, h.conn⟩,
    fun h => ⟨h.returned, h.calls, h.interest, h.conn⟩⟩

theorem touchesNothing_iff {calls : List (LoopCall β)}
    (h : Run LoopOp.exec Scheduled EventLoop.start calls s) (hout : AllOut s) (op : LoopOp β) :
    TouchesNothing calls (Call.make LoopOp.exec op s) ↔
      Spares calls (Call.make LoopOp.exec op s) := by
  constructor
  · rintro ⟨hinert, hidle⟩
    refine ⟨?_, fun functor hcalled hnext => ?_⟩
    · by_contra hspares
      obtain ⟨i, hon⟩ := onClosed_of_not_spares hspares
      exact hspares ((hout.inert_iff hon).1 (hinert i hon))
    · have hleft : Leftover calls (Call.make LoopOp.exec op s) functor := ⟨hcalled, hnext⟩
      exact (uneventful_iff h hleft).1 (hidle functor hleft)
  · rintro ⟨hspares, hlater⟩
    exact ⟨fun i hon => (hout.inert_iff hon).2 hspares,
      fun functor hleft => (uneventful_iff h hleft).2 (hlater functor hleft.1 hleft.2)⟩

end Steps

/-- **Closed connections are inert** in exactly the runs that spare them, whatever step comes
next. -/
theorem closed_inert [Inhabited β] {calls : List (LoopCall β)} {s : EventLoop β}
    (h : Run LoopOp.exec Scheduled EventLoop.start calls s) (op : LoopOp β) :
    (AllOut s ∧ Throughout TouchesNothing (calls ++ [Call.make LoopOp.exec op s])) ↔
      Throughout Spares (calls ++ [Call.make LoopOp.exec op s]) := by
  have hboth : (Throughout Spares calls → AllOut s) ∧
      (Throughout TouchesNothing calls ↔ Throughout Spares calls) := by
    clear op
    induction h with
    | nil => exact ⟨fun _ i hs => (by cases hs), iff_of_true (throughout_nil _) (throughout_nil _)⟩
    | snoc op hrun _ hok ih =>
      obtain ⟨hout, hiff⟩ := ih
      refine ⟨fun hspares => ?_, ?_⟩
      · obtain ⟨hspares, hlast⟩ := throughout_snoc.1 hspares
        exact (hout hspares).step op hlast.1 hok
      · rw [throughout_snoc, throughout_snoc, hiff]
        exact and_congr_right fun hspares => touchesNothing_iff hrun (hout hspares) op
  obtain ⟨hout, hiff⟩ := hboth
  rw [throughout_snoc, throughout_snoc, hiff]
  constructor
  · rintro ⟨hall, hspares, hnothing⟩
    exact ⟨hspares, (touchesNothing_iff h hall op).1 hnothing⟩
  · rintro ⟨hspares, hlast⟩
    exact ⟨hout hspares, hspares, (touchesNothing_iff h (hout hspares) op).2 hlast⟩

/-- A connection that does not read is closed by force and used once more; from another thread it
is asked to stop reading. -/
theorem closed_inert_of_use :
    ∃ calls s, Run (LoopOp.exec (β := ℕ)) Scheduled EventLoop.start calls s ∧
      (s.conn 0).state = .kDisconnected ∧ leftoverNext calls = true ∧
      ((AllOut s ∧ Throughout TouchesNothing
          (calls ++ [Call.make LoopOp.exec (.runFunctor (.ok 0) (.ok 0)) s])) ↔
        Throughout Spares
          (calls ++ [Call.make LoopOp.exec (.runFunctor (.ok 0) (.ok 0)) s])) ∧
      Throughout Spares (calls ++ [Call.make LoopOp.exec (.runFunctor (.ok 0) (.ok 0)) s]) := by
  let ops : List (LoopOp ℕ) := [.newConnection 5 (some 0) (some 1) none, .swapFunctors,
    .runFunctor (.ok 0) (.ok 0), .request 0 (.stopRead true), .request 0 .forceClose,
    .swapFunctors, .runFunctor (.ok 0) (.ok 0), .request 0 (.send true [1, 2] (.ok 0) (.ok 0)),
    .request 0 (.shutdown true), .request 0 .forceClose, .request 0 (.stopRead false),
    .swapFunctors]
  have hrun : Run (LoopOp.exec (β := ℕ)) Scheduled EventLoop.start _ _ :=
    run_replay ops (by decide +kernel)
  have hspares : Run (LoopOp.exec (β := ℕ)) Spares EventLoop.start _ _ :=
    run_replay ops (by decide +kernel)
  exact ⟨_, _, hrun, by decide +kernel, by decide +kernel, closed_inert hrun _,
    throughout_snoc.2 ⟨hspares.guarded, by decide +kernel⟩⟩

/-- A `stopRead` from another thread on a closed connection, the object being reused before its
functor is called: the functor stops the connection in use from reading. -/
example :
    let ops : List (LoopOp ℕ) := [.newConnection 5 (some 0) (some 1) none, .swapFunctors,
      .runFunctor (.ok 0) (.ok 0), .newConnection 6 (some 0) (some 1) none,
      .handleEvent 0 (.readCallback (.ok [])), .request 0 (.stopRead false), .swapFunctors,
      .runFunctor (.ok 0) (.ok 0)]
    Replays LoopOp.exec Spares [] ops EventLoop.start ∧
      ¬Replays LoopOp.exec Spares [] (ops ++ [.runFunctor (.ok 0) (.ok 0)]) EventLoop.start := by
  decide +kernel

/-- A user starts reading on a connection that its peer has closed: its old descriptor is added to
the poller. -/
theorem startRead_after_close :
    ¬∀ (calls : List (LoopCall ℕ)) (s : EventLoop ℕ),
      Run LoopOp.exec Scheduled EventLoop.start calls s → Throughout TouchesNothing calls := by
  intro h
  have hrun : Run (LoopOp.exec (β := ℕ)) Scheduled EventLoop.start _ _ :=
    run_replay [.newConnection 5 (some 0) (some 1) none, .swapFunctors,
      .runFunctor (.ok 0) (.ok 0), .handleEvent 0 (.readCallback (.ok []))] (by decide +kernel)
  have hread := hrun.snoc (.request 0 (.startRead true)) (by decide +kernel) (by decide +kernel)
  obtain ⟨-, hnothing⟩ := throughout_snoc.1 (h _ _ hread)
  have hinert := hnothing.1 0 ⟨by decide +kernel, rfl⟩
  have hadded := congrFun (hinert.interest fun _ => none) 5
  revert hadded
  decide +kernel

end Cannet.Net
