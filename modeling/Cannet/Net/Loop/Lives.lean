import Cannet.Net.Connection.Frame
import Cannet.Net.EventLoop

/-!
# What holds of a connection over each of its lives

An invariant `J` of what a connection has done in one life and the connection itself
(`LifeInvariant`) holds of every life of every connection, after every run of the loop
(`lives_of_run`). The rest of the loop is in order when the numbers it holds are of connections
that were made (`Handles`).
-/

namespace Cannet.Net

open Foundations

variable {β : Type}

/-- The functor a connection queues. -/
def Effect.queued : Effect β → Option (Functor β)
  | .queueInLoop functor => some functor
  | _ => none

/-- The return of a connection to `connectionsPool`. -/
def Effect.isRecycle : Effect β → Bool
  | .recycle _ => true
  | _ => false

def Effect.isClose : Effect β → Bool
  | .close _ => true
  | _ => false

namespace EventLoop

/-- The loop after what connection `i` does in `es` has been performed. -/
structure Performed (s s' : EventLoop β) (i : ℕ) (es : List (Effect β)) : Prop where
  conn : s'.conn = s.conn
  made : s'.made = s.made
  life : s'.life = s.life
  running : s'.running = s.running
  functors : s'.functors =
    s.functors ++ (es.filterMap Effect.queued).map (.connection i (s.life i))
  pool : ∀ j, some j ∈ s'.connectionsPool →
    some j ∈ s.connectionsPool ∨ ∃ fd, s.connections fd = some j
  connections : ∀ fd j, s'.connections fd = some j → s.connections fd = some j

/-- What leaves the loop as it is. -/
theorem Performed.refl (s : EventLoop β) (i : ℕ) {es : List (Effect β)}
    (h : es.filterMap Effect.queued = []) : Performed s s i es :=
  ⟨rfl, rfl, rfl, rfl, by rw [h, List.map_nil, List.append_nil], fun _ => .inl, fun _ _ => id⟩

theorem performed_one (i : ℕ) (s : EventLoop β) (e : Effect β) :
    Performed s (perform i s e) i [e] := by
  cases e with
  | queueInLoop functor => exact ⟨rfl, rfl, rfl, rfl, rfl, fun _ => .inl, fun _ _ => id⟩
  | recycle fd =>
    refine ⟨rfl, rfl, rfl, rfl, (List.append_nil _).symm, fun j hj => ?_, fun fd' j hj => ?_⟩
    · rcases List.mem_append.1 hj with hj | hj
      · exact .inl hj
      · exact .inr ⟨fd, (List.mem_singleton.1 hj).symm⟩
    · change Function.update s.connections fd none fd' = some j at hj
      by_cases hfd : fd' = fd
      · rw [hfd, Function.update_self] at hj
        cases hj
      · rwa [Function.update_of_ne hfd] at hj
  | _ => exact .refl s i rfl

theorem Performed.cons {s s' s'' : EventLoop β} {i : ℕ} {e : Effect β} {es : List (Effect β)}
    (h : Performed s s' i [e]) (h' : Performed s' s'' i es) : Performed s s'' i (e :: es) where
  conn := h'.conn.trans h.conn
  made := h'.made.trans h.made
  life := h'.life.trans h.life
  running := h'.running.trans h.running
  functors := by
    rw [h'.functors, h.functors, h.life, List.append_assoc, ← List.map_append,
      ← List.filterMap_append, List.singleton_append]
  pool j hj := by
    rcases h'.pool j hj with hj | ⟨fd, hfd⟩
    · exact h.pool j hj
    · exact .inr ⟨fd, h.connections fd j hfd⟩
  connections fd j hj := h.connections fd j (h'.connections fd j hj)

theorem performed (i : ℕ) (es : List (Effect β)) (s : EventLoop β) :
    Performed s (es.foldl (perform i) s) i es := by
  induction es generalizing s with
  | nil => exact .refl s i rfl
  | cons e es ih => exact (performed_one i s e).cons (ih _)

/-- What closes no connection moves none. -/
theorem perform_of_not_recycle (i : ℕ) (es : List (Effect β)) (s : EventLoop β)
    (h : ∀ e ∈ es, e.isRecycle = false) :
    (es.foldl (perform i) s).connectionsPool = s.connectionsPool ∧
      (es.foldl (perform i) s).connections = s.connections := by
  induction es generalizing s with
  | nil => exact ⟨rfl, rfl⟩
  | cons e es ih =>
    obtain ⟨hpool, hconnections⟩ := ih (perform i s e) fun e' he' => h e' (by simp [he'])
    rw [List.foldl_cons, hpool, hconnections]
    have he := h e (by simp)
    cases e with
    | recycle fd => cases he
    | _ => exact ⟨rfl, rfl⟩

/-- A call on a connection: what it does, and the loop after it. -/
theorem onConnection_spec (i : ℕ) (x : Conn β Unit) (s : EventLoop β) :
    ∃ s', onConnection i x s = ⟨(x (s.conn i)).val, s',
        (x (s.conn i)).trace.map (LifeEffect.mk i (s.life i))⟩ ∧
      Performed { s with conn := Function.update s.conn i (x (s.conn i)).state } s' i
        (x (s.conn i)).trace :=
  ⟨_, rfl, performed i _ _⟩

/-- The same for a call that closes nothing. -/
theorem onConnection_quiet (i : ℕ) (x : Conn β Unit) (s : EventLoop β)
    (h : ∀ e ∈ (x (s.conn i)).trace, e.isRecycle = false) :
    ∃ s', onConnection i x s = ⟨(x (s.conn i)).val, s',
        (x (s.conn i)).trace.map (LifeEffect.mk i (s.life i))⟩ ∧
      Performed { s with conn := Function.update s.conn i (x (s.conn i)).state } s' i
        (x (s.conn i)).trace ∧
      s'.connectionsPool = s.connectionsPool ∧ s'.connections = s.connections :=
  ⟨_, rfl, performed i _ _, perform_of_not_recycle i _ _ h⟩

/-! ## `createConnection` -/

section Create

variable [Inhabited β] (s : EventLoop β) (sockFd : ℤ)
  (connectCallback messageCallback writeCompleteCallback : Option Callback)

/-- The loop when a pooled connection has been reset and installed. -/
def reused (i : ℕ) : EventLoop β :=
  { s with
    conn := Function.update s.conn i (TcpConnection.connectReset sockFd (s.conn i)).state
    life := Function.update s.life i (s.life i + 1)
    connections := Function.update s.connections sockFd (some i)
    connectionsPool := s.connectionsPool.dropLast }

/-- The loop when a new connection has been made and installed. -/
def extended : EventLoop β :=
  { s with
    conn := Function.update s.conn s.made
      (newConn sockFd connectCallback messageCallback writeCompleteCallback)
    made := s.made + 1
    connections := Function.update s.connections sockFd (some s.made) }

theorem createConnection_reuse {i : ℕ} (h : s.connectionsPool.getLast? = some (some i)) :
    createConnection sockFd connectCallback messageCallback writeCompleteCallback s =
      (onConnection i TcpConnection.connectEstablished (s.reused sockFd i)).after
        [⟨i, s.life i + 1, .setKeepAlive sockFd⟩] := by
  let s₁ : EventLoop β := { s with life := Function.update s.life i (s.life i + 1) }
  have hreset : onConnection i (TcpConnection.connectReset sockFd) s₁ =
      ⟨.ok (), { s₁ with
        conn := Function.update s.conn i (TcpConnection.connectReset sockFd (s.conn i)).state },
        [⟨i, s₁.life i, .setKeepAlive sockFd⟩]⟩ := rfl
  have hlife : s₁.life i = s.life i + 1 := Function.update_self _ _ _
  rw [createConnection, Act.get_bind, h]
  simp only [Act.need_some]
  rw [Act.pure_bind, Act.modify_bind, Act.bind_ok hreset, hlife]
  rfl

theorem createConnection_new (h : s.connectionsPool.getLast? = none) :
    createConnection sockFd connectCallback messageCallback writeCompleteCallback s =
      (onConnection s.made TcpConnection.connectEstablished
        (s.extended sockFd connectCallback messageCallback writeCompleteCallback)).after
        [⟨s.made, s.life s.made, .setKeepAlive sockFd⟩] := by
  let s₁ : EventLoop β :=
    { s with
      made := s.made + 1
      conn := Function.update s.conn s.made
        (newConn sockFd connectCallback messageCallback writeCompleteCallback) }
  have hset : onConnection s.made (Act.emit (.setKeepAlive sockFd)) s₁ =
      ⟨.ok (), s₁, [⟨s.made, s.life s.made, .setKeepAlive sockFd⟩]⟩ := by
    have hsame : Function.update s₁.conn s.made (s₁.conn s.made) = s₁.conn :=
      Function.update_eq_self _ _
    have hop : onConnection s.made (Act.emit (.setKeepAlive sockFd)) s₁ =
        ⟨.ok (), { s₁ with conn := Function.update s₁.conn s.made (s₁.conn s.made) },
          [⟨s.made, s.life s.made, .setKeepAlive sockFd⟩]⟩ := rfl
    rw [hop, hsame]
  rw [createConnection, Act.get_bind, h]
  simp only [Act.modify_bind]
  rw [Act.bind_ok hset]
  rfl

theorem createConnection_null (h : s.connectionsPool.getLast? = some none) :
    createConnection sockFd connectCallback messageCallback writeCompleteCallback s =
      ⟨.error .nullDereference, s, []⟩ := by
  rw [createConnection, Act.get_bind, h]
  rfl

end Create

theorem runFunctor_nil [Inhabited β] (w f : SysRet) {s : EventLoop β} (h : s.running = []) :
    runFunctor w f s = ⟨.ok (), s, []⟩ := by
  rw [runFunctor, Act.get_bind, h]
  rfl

theorem runFunctor_cons [Inhabited β] (w f : SysRet) {s : EventLoop β} {functor : LoopFunctor β}
    {rest : List (LoopFunctor β)} (h : s.running = functor :: rest) :
    runFunctor w f s = callFunctor w f functor { s with running := rest } := by
  rw [runFunctor, Act.get_bind, h]
  rfl

/-- The connections the loop refers to were made. -/
structure Handles (s : EventLoop β) : Prop where
  pool : ∀ i, some i ∈ s.connectionsPool → i < s.made
  connections : ∀ fd i, s.connections fd = some i → i < s.made
  functors : ∀ i life functor, .connection i life functor ∈ s.running ++ s.functors → i < s.made

/-- A connection that was made may be installed under any descriptor. -/
theorem Handles.install {s : EventLoop β} (h : Handles s) {made i : ℕ} (hle : s.made ≤ made)
    (hi : i < made) (sockFd : ℤ) :
    ∀ fd j, Function.update s.connections sockFd (some i) fd = some j → j < made := by
  intro fd j hj
  by_cases hfd : fd = sockFd
  · rw [hfd, Function.update_self] at hj
    obtain rfl := Option.some.inj hj
    exact hi
  · rw [Function.update_of_ne hfd] at hj
    have := h.connections fd j hj
    omega

theorem Handles.performed {s s' : EventLoop β} {conn : ℕ → TcpConnection β} {i : ℕ}
    {es : List (Effect β)} (h : Handles s) (hi : i < s.made)
    (hp : Performed { s with conn := conn } s' i es) : Handles s' where
  pool j hj := by
    rw [hp.made]
    rcases hp.pool j hj with hj | ⟨fd, hfd⟩
    · exact h.pool j hj
    · exact h.connections fd j hfd
  connections fd j hj := by
    rw [hp.made]
    exact h.connections fd j (hp.connections fd j hj)
  functors j life functor hmem := by
    rw [hp.made]
    rw [hp.running, hp.functors, ← List.append_assoc] at hmem
    rcases List.mem_append.1 hmem with hmem | hmem
    · exact h.functors j life functor hmem
    · obtain ⟨f, -, hf⟩ := List.mem_map.1 hmem
      cases hf
      exact hi

end EventLoop

open EventLoop TcpConnection

/-- An invariant of one life of a connection: of what it has done since it was made or reset, and
of the connection. -/
structure LifeInvariant [Inhabited β] (J : List (Effect β) → TcpConnection β → Prop) : Prop where
  make : ∀ sockFd connectCallback messageCallback writeCompleteCallback,
    J [.setKeepAlive sockFd]
      (newConn sockFd connectCallback messageCallback writeCompleteCallback)
  reset : ∀ es c sockFd, J es c → J (connectReset sockFd c).trace (connectReset sockFd c).state
  connectEstablished : ∀ es c, J es c → (TcpConnection.connectEstablished c).val = .ok () →
    J (es ++ (TcpConnection.connectEstablished c).trace) (TcpConnection.connectEstablished c).state
  handleEvent : ∀ callback : ChannelCallback β, callback.call.Keeps J
  request : ∀ r : Request β, r.call.Keeps J
  functor : ∀ w f (functor : Functor β), (functor.call w f).Keeps J

section

variable [Inhabited β] {J : List (Effect β) → TcpConnection β → Prop} (h : CallFrame J)

include h

/-- Requests keep what the two that change the state keep. -/
theorem CallFrame.keeps_request (hshutdown : ∀ onLoop, (shutdown (β := β) onLoop).Keeps J)
    (hforce : (forceClose (β := β)).Keeps J) : ∀ r : Request β, r.call.Keeps J
  | .send onLoop message w f => h.keeps_send onLoop w f message
  | .shutdown onLoop => hshutdown onLoop
  | .forceClose => hforce
  | .startRead _ => h.keeps_runInLoop _ _ h.keeps_startReadInLoop
  | .stopRead _ => h.keeps_runInLoop _ _ h.keeps_stopReadInLoop
  | .setTcpNoDelay _ => .bind .get fun _ => .emit (h.emit _ rfl)
  | .setSendFile file => .modify (h.sendFile (some file))

/-- A functor that closes nothing. -/
theorem CallFrame.keeps_functor (w f : SysRet) :
    ∀ g : Functor β, g ≠ .forceCloseInLoop → (g.call w f).Keeps J
  | .writeCompleteCallback, _ => .bind .get fun _ => .ite (.pure ()) (.abort _)
  | .sendInLoop (.byValue message), _ => h.keeps_sendInLoop w f message message.length
  | .sendInLoop .byReference, _ => .abort _
  | .shutdownInLoop, _ => h.output.keeps_shutdownInLoop
  | .forceCloseInLoop, hne => absurd rfl hne
  | .startReadInLoop, _ => h.keeps_startReadInLoop
  | .stopReadInLoop, _ => h.keeps_stopReadInLoop

/-- What looks at the opening and closing of a connection only is an invariant of its lives when
the calls that open and close it keep it. -/
theorem CallFrame.lifeInvariant
    (hmake : ∀ sockFd connectCallback messageCallback writeCompleteCallback,
      J [.setKeepAlive sockFd]
        (newConn sockFd connectCallback messageCallback writeCompleteCallback))
    (hreset : ∀ es c sockFd, J es c →
      J (connectReset sockFd c).trace (connectReset sockFd c).state)
    (hopen : ∀ es c, J es c → (TcpConnection.connectEstablished c).val = .ok () →
      J (es ++ (TcpConnection.connectEstablished c).trace)
        (TcpConnection.connectEstablished c).state)
    (hclose : (handleClose (β := β)).Keeps J)
    (hshutdown : ∀ onLoop, (shutdown (β := β) onLoop).Keeps J)
    (hforce : (forceClose (β := β)).Keeps J) : LifeInvariant J where
  make := hmake
  reset := hreset
  connectEstablished := hopen
  handleEvent callback := by
    cases callback with
    | closeCallback => exact hclose
    | errorCallback => exact h.keeps_handleError
    | readCallback r => exact h.keeps_handleRead hclose r
    | writeCallback r => exact h.output.keeps_handleWrite r
  request := h.keeps_request hshutdown hforce
  functor w f functor := by
    by_cases hclosing : functor = .forceCloseInLoop
    · subst hclosing
      exact .bind .get fun _ => .ite hclose (.pure ())
    · exact h.keeps_functor w f functor hclosing

end

/-- An invariant of one life in two stages: `J₀` holds of a connection that has been made or reset,
and `J` from when it is established. Only calls that return have to keep it: no run goes on after
one that aborts. -/
structure StagedInvariant [Inhabited β] (J₀ J : List (Effect β) → TcpConnection β → Prop) :
    Prop where
  make : ∀ sockFd connectCallback messageCallback writeCompleteCallback,
    J₀ [.setKeepAlive sockFd]
      (newConn sockFd connectCallback messageCallback writeCompleteCallback)
  reset : ∀ es c sockFd, J es c → J₀ (connectReset sockFd c).trace (connectReset sockFd c).state
  connectEstablished : ∀ es c, J₀ es c → (TcpConnection.connectEstablished c).val = .ok () →
    J (es ++ (TcpConnection.connectEstablished c).trace) (TcpConnection.connectEstablished c).state
  handleEvent : ∀ callback : ChannelCallback β, callback.call.KeepsOk J
  request : ∀ r : Request β, r.call.KeepsOk J
  functor : ∀ w f (functor : Functor β), (functor.call w f).KeepsOk J

theorem LifeInvariant.staged [Inhabited β] {J : List (Effect β) → TcpConnection β → Prop}
    (h : LifeInvariant J) : StagedInvariant J J where
  make := h.make
  reset := h.reset
  connectEstablished := h.connectEstablished
  handleEvent callback := (h.handleEvent callback).ok
  request r := (h.request r).ok
  functor w f g := (h.functor w f g).ok

/-- The invariant of the loop: `J` over every life so far, and handles of connections only. -/
structure LoopInvariant (J : List (Effect β) → TcpConnection β → Prop)
    (es : List (LifeEffect (Effect β))) (s : EventLoop β) : Prop where
  lives : Lives J es s.made s.life s.conn
  handles : Handles s

namespace LoopInvariant

variable {J₀ J : List (Effect β) → TcpConnection β → Prop} {es : List (LifeEffect (Effect β))}
  {s : EventLoop β}

theorem start [Inhabited β] (J : List (Effect β) → TcpConnection β → Prop) :
    LoopInvariant J [] (EventLoop.start : EventLoop β) where
  lives := .start J _
  handles := {
    pool := fun _ h => absurd h List.not_mem_nil
    connections := fun _ _ h => by cases h
    functors := fun _ _ _ h => absurd h List.not_mem_nil }

theorem imp {J' : List (Effect β) → TcpConnection β → Prop} (hJ : ∀ es c, J es c → J' es c)
    (h : LoopInvariant J es s) : LoopInvariant J' es s := ⟨h.lives.imp hJ, h.handles⟩

/-- A call on a connection keeps what it keeps of the connection. -/
theorem onConnection {i : ℕ} {x : Conn β Unit} (h : LoopInvariant J es s) (hi : i < s.made)
    (hx : ∀ es, J es (s.conn i) → J (es ++ (x (s.conn i)).trace) (x (s.conn i)).state) :
    LoopInvariant J (es ++ (EventLoop.onConnection i x s).trace)
      (EventLoop.onConnection i x s).state := by
  obtain ⟨s', hs', hp⟩ := onConnection_spec i x s
  rw [hs']
  refine ⟨?_, h.handles.performed hi hp⟩
  rw [hp.conn, hp.made, hp.life]
  exact h.lives.act hi (hx _ (h.lives.current i hi))

variable [Inhabited β]

/-- A pooled connection begins another life. -/
theorem reused (hJ : StagedInvariant J₀ J) (h : LoopInvariant J es s) {i : ℕ} {sockFd : ℤ}
    (hi : i < s.made)
    (hok : (EventLoop.onConnection i TcpConnection.connectEstablished (s.reused sockFd i)).val =
      .ok ()) :
    LoopInvariant J
      (es ++ ⟨i, s.life i + 1, .setKeepAlive sockFd⟩ ::
        (EventLoop.onConnection i TcpConnection.connectEstablished (s.reused sockFd i)).trace)
      (EventLoop.onConnection i TcpConnection.connectEstablished (s.reused sockFd i)).state := by
  obtain ⟨s', hs', hp⟩ := onConnection_spec i TcpConnection.connectEstablished (s.reused sockFd i)
  rw [hs'] at hok ⊢
  have hhandles : Handles (s.reused sockFd i) := {
    pool := fun j hj => h.handles.pool j (List.dropLast_subset _ hj)
    connections := h.handles.install (Nat.le_refl _) hi sockFd
    functors := h.handles.functors }
  have hconn : (s.reused sockFd i).conn i = (connectReset sockFd (s.conn i)).state :=
    Function.update_self _ _ _
  have hlife : (s.reused sockFd i).life i = s.life i + 1 := Function.update_self _ _ _
  refine ⟨?_, hhandles.performed hi hp⟩
  rw [hp.conn, hp.made, hp.life]
  rw [hlife]
  rw [hconn] at hok ⊢
  have hest := hJ.connectEstablished _ _ (hJ.reset _ _ sockFd (h.lives.current i hi)) hok
  have hlives := h.lives.again hi hest
  simp only [EventLoop.reused, Function.update_idem]
  exact hlives

/-- A new connection begins its first life. -/
theorem extended (hJ : StagedInvariant J₀ J) (h : LoopInvariant J es s) (sockFd : ℤ)
    (connectCallback messageCallback writeCompleteCallback : Option Callback)
    (hok : (EventLoop.onConnection s.made TcpConnection.connectEstablished
      (s.extended sockFd connectCallback messageCallback writeCompleteCallback)).val = .ok ()) :
    LoopInvariant J
      (es ++ ⟨s.made, s.life s.made, .setKeepAlive sockFd⟩ ::
        (EventLoop.onConnection s.made TcpConnection.connectEstablished
          (s.extended sockFd connectCallback messageCallback writeCompleteCallback)).trace)
      (EventLoop.onConnection s.made TcpConnection.connectEstablished
        (s.extended sockFd connectCallback messageCallback writeCompleteCallback)).state := by
  let s₁ := s.extended sockFd connectCallback messageCallback writeCompleteCallback
  obtain ⟨s', hs', hp⟩ := onConnection_spec s.made TcpConnection.connectEstablished s₁
  rw [hs'] at hok ⊢
  have hhandles : Handles s₁ := {
    pool := fun j hj => Nat.lt_succ_of_lt (h.handles.pool j hj)
    connections := h.handles.install (Nat.le_succ _) (Nat.lt_succ_self _) sockFd
    functors := fun j life functor hj => Nat.lt_succ_of_lt (h.handles.functors j life functor hj) }
  have hconn : s₁.conn s.made =
      newConn sockFd connectCallback messageCallback writeCompleteCallback :=
    Function.update_self _ _ _
  have hlife : s₁.life s.made = 0 := h.lives.unused s.made (Nat.le_refl _)
  refine ⟨?_, hhandles.performed (Nat.lt_succ_self _) hp⟩
  rw [hp.conn, hp.made, hp.life]
  rw [hlife, h.lives.unused s.made (Nat.le_refl _)]
  rw [hconn] at hok ⊢
  have hest := hJ.connectEstablished _ _
    (hJ.make sockFd connectCallback messageCallback writeCompleteCallback) hok
  have hlives := h.lives.make hest
  simp only [s₁, EventLoop.extended, Function.update_idem]
  exact hlives

theorem createConnection (hJ : StagedInvariant J₀ J) (h : LoopInvariant J es s) (sockFd : ℤ)
    (connectCallback messageCallback writeCompleteCallback : Option Callback)
    (hok : (EventLoop.createConnection sockFd connectCallback messageCallback
      writeCompleteCallback s).val = .ok ()) :
    LoopInvariant J
      (es ++ (EventLoop.createConnection sockFd connectCallback messageCallback
        writeCompleteCallback s).trace)
      (EventLoop.createConnection sockFd connectCallback messageCallback
        writeCompleteCallback s).state := by
  rcases hpool : s.connectionsPool.getLast? with _ | _ | i
  · rw [createConnection_new s _ _ _ _ hpool] at hok ⊢
    exact h.extended hJ _ _ _ _ hok
  · rw [createConnection_null s _ _ _ _ hpool, List.append_nil]
    exact h
  · have hi := h.handles.pool i (List.mem_of_getLast? hpool)
    rw [createConnection_reuse s _ _ _ _ hpool] at hok ⊢
    exact h.reused hJ hi hok

theorem runFunctor (hJ : StagedInvariant J₀ J) (h : LoopInvariant J es s) (w f : SysRet)
    (hok : (EventLoop.runFunctor w f s).val = .ok ()) :
    LoopInvariant J (es ++ (EventLoop.runFunctor w f s).trace)
      (EventLoop.runFunctor w f s).state := by
  cases hrunning : s.running with
  | nil =>
    rw [runFunctor_nil w f hrunning, List.append_nil]
    exact h
  | cons functor rest =>
    rw [runFunctor_cons w f hrunning] at hok ⊢
    have hfunctors : ∀ g, g ∈ rest ++ s.functors → g ∈ s.running ++ s.functors := fun g hg => by
      rw [hrunning]
      exact List.mem_cons_of_mem functor hg
    have hrest : LoopInvariant J es { s with running := rest } :=
      ⟨h.lives, h.handles.pool, h.handles.connections,
        fun i life g hg => h.handles.functors i life g (hfunctors _ hg)⟩
    cases functor with
    | createConnection sockFd connectCallback messageCallback writeCompleteCallback =>
      exact hrest.createConnection hJ _ _ _ _ hok
    | connection i life g =>
      have hi : i < s.made := h.handles.functors i life g (by simp [hrunning])
      exact hrest.onConnection hi fun es hc => hJ.functor w f g es _ _ hc hok

/-- One step of the loop keeps the invariant. -/
theorem step (hJ : StagedInvariant J₀ J) (h : LoopInvariant J es s) (op : LoopOp β)
    {calls : List (LoopCall β)} (hop : Scheduled calls (Call.make LoopOp.exec op s))
    (hok : (op.exec s).val = .ok ()) :
    LoopInvariant J (es ++ (op.exec s).trace) (op.exec s).state := by
  cases op with
  | newConnection sockFd connectCallback messageCallback writeCompleteCallback =>
    rw [LoopOp.exec, EventLoop.newConnection, Act.modify_apply, List.append_nil]
    refine ⟨h.lives, h.handles.pool, h.handles.connections, fun i life g hg => ?_⟩
    simp only [← List.append_assoc, List.mem_append, List.mem_singleton, reduceCtorEq,
      or_false] at hg
    exact h.handles.functors i life g (List.mem_append.2 hg)
  | handleEvent i callback =>
    exact h.onConnection hop.2 fun es hc => hJ.handleEvent callback es _ _ hc hok
  | request i r => exact h.onConnection hop fun es hc => hJ.request r es _ _ hc hok
  | swapFunctors =>
    rw [LoopOp.exec, EventLoop.swapFunctors, Act.modify_apply, List.append_nil]
    refine ⟨h.lives, h.handles.pool, h.handles.connections, fun i life g hg => ?_⟩
    rw [List.append_nil] at hg
    exact h.handles.functors i life g (List.mem_append_right _ hg)
  | runFunctor w f => exact h.runFunctor hJ w f hok

end LoopInvariant

/-- **What holds of a connection over one life**, in its two stages, holds of all lives of all
connections after every run of the loop. -/
theorem stagedInvariant_of_run [Inhabited β] {J₀ J : List (Effect β) → TcpConnection β → Prop}
    (hJ : StagedInvariant J₀ J) {calls : List (LoopCall β)} {s : EventLoop β}
    (h : Run LoopOp.exec Scheduled EventLoop.start calls s) :
    LoopInvariant J (traceOf calls) s := by
  refine h.invariant (I := fun calls s => LoopInvariant J (traceOf calls) s) (.start J) ?_
  intro calls s op hinv hop hok
  rw [traceOf_append, traceOf_singleton]
  exact hinv.step hJ op hop hok

/-- The same for an invariant that holds from the start of each life. -/
theorem loopInvariant_of_run [Inhabited β] {J : List (Effect β) → TcpConnection β → Prop}
    (hJ : LifeInvariant J) {calls : List (LoopCall β)} {s : EventLoop β}
    (h : Run LoopOp.exec Scheduled EventLoop.start calls s) :
    LoopInvariant J (traceOf calls) s :=
  stagedInvariant_of_run hJ.staged h

end Cannet.Net
