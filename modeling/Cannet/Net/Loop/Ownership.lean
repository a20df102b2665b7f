import Cannet.Foundations.Pool
import Cannet.Net.Connection.Lifecycle
import Cannet.Net.Loop.Lives

/-!
# Who holds a connection

A connection is in `connections_`, under its descriptor, while it is live, and in
`connectionsPool` afterwards, until `createConnection` takes it for another socket. Descriptors
come from `accept`, so a live connection's is not given to another one. This is kept by every call
that opens or closes connections (`connections_partitioned`): closing moves the object that is
closed, for its channel still has the descriptor it is filed under.
-/

namespace Cannet.Net

open Foundations

variable {β : Type}

/-- Established and not yet closed. -/
def TcpConnection.Live (c : TcpConnection β) : Prop :=
  c.state = .kConnected ∨ c.state = .kDisconnecting

instance : DecidablePred (TcpConnection.Live (β := β)) := fun _ =>
  inferInstanceAs (Decidable (_ ∨ _))

/-- The calls that open and close connections, and the two requests of a user that make one
`kDisconnecting`. -/
inductive PoolOp
  | createConnection (sockFd : ℤ)
      (connectCallback messageCallback writeCompleteCallback : Option Callback)
  | handleClose (conn : ℕ)
  | forceCloseInLoop (conn : ℕ)
  | shutdown (conn : ℕ) (onLoop : Bool)
  | forceClose (conn : ℕ)

namespace PoolOp

def exec [Inhabited β] : PoolOp → LoopAct β Unit
  | createConnection sockFd connectCallback messageCallback writeCompleteCallback =>
    EventLoop.createConnection sockFd connectCallback messageCallback writeCompleteCallback
  | handleClose conn => EventLoop.onConnection conn TcpConnection.handleClose
  | forceCloseInLoop conn => EventLoop.onConnection conn TcpConnection.forceCloseInLoop
  | shutdown conn onLoop => EventLoop.onConnection conn (TcpConnection.shutdown onLoop)
  | forceClose conn => EventLoop.onConnection conn TcpConnection.forceClose

/-- A descriptor from `accept` is not that of a live connection; `handleClose` is called on live
connections only. -/
def Allowed (s : EventLoop β) : PoolOp → Prop
  | createConnection sockFd .. => ∀ i < s.made, (s.conn i).Live → (s.conn i).sockFd ≠ sockFd
  | handleClose conn => conn < s.made ∧ (s.conn conn).Live
  | forceCloseInLoop conn | shutdown conn _ | forceClose conn => conn < s.made

instance (s : EventLoop β) : ∀ op : PoolOp, Decidable (op.Allowed s)
  | createConnection _ .. => inferInstanceAs (Decidable (∀ i < s.made, _ → _))
  | handleClose _ => inferInstanceAs (Decidable (_ ∧ _))
  | forceCloseInLoop _ | shutdown _ _ | forceClose _ => inferInstanceAs (Decidable (_ < _))

end PoolOp

/-! ## One call -/

namespace EventLoop

open TcpConnection

/-- Establishing a connection moves nothing. -/
theorem onConnection_connectEstablished {s : EventLoop β} {i : ℕ}
    (h : (s.conn i).state = .kConnecting) :
    (onConnection i connectEstablished s).state =
        { s with conn := Function.update s.conn i (s.conn i).established } ∧
      (onConnection i connectEstablished s).val =
        if (s.conn i).connectionCallback.isSome then .ok () else .error .badFunctionCall := by
  have ho := connectEstablished_outcome (s.conn i)
  rw [onConnection]
  generalize connectEstablished (s.conn i) = o at ho ⊢
  cases ho with
  | refused hs => exact absurd h hs
  | unset _ hcb => simp [hcb, perform, readCall, Channel.updateCall]
  | opened _ hcb => simp [hcb, perform, readCall, Channel.updateCall]

/-- The loop when connection `i` has been closed. -/
def released (s : EventLoop β) (i : ℕ) : EventLoop β :=
  { s with
    conn := Function.update s.conn i (s.conn i).closed
    connectionsPool := s.connectionsPool ++ [s.connections (s.conn i).channel.fd]
    connections := Function.update s.connections (s.conn i).channel.fd none }

theorem perform_closeCalls (s : EventLoop β) (i : ℕ) (c : TcpConnection β) :
    c.closeCalls.foldl (perform i) s =
      { s with
        connectionsPool := s.connectionsPool ++ [s.connections c.channel.fd]
        connections := Function.update s.connections c.channel.fd none } := by
  rw [closeCalls, Channel.removeCalls]
  split <;> rfl

/-- **Closing** moves what is filed under the descriptor to the pool. -/
theorem onConnection_handleClose {s : EventLoop β} {i : ℕ} (h : (s.conn i).Live)
    (hcb : (s.conn i).closeCallback = true) :
    (onConnection i handleClose s).val = .ok () ∧
      (onConnection i handleClose s).state = s.released i := by
  have ho := handleClose_outcome (s.conn i)
  rw [onConnection]
  generalize handleClose (s.conn i) = o at ho ⊢
  cases ho with
  | refused hdead => exact absurd h hdead
  | unset _ hcb' => simp [hcb] at hcb'
  | closed =>
    rw [perform_closeCalls]
    exact ⟨rfl, rfl⟩

end EventLoop

/-! ## The invariant -/

open EventLoop TcpConnection

/-- A connection on its own: its channel has its descriptor, and if it is not live its channel is
out of the poller. -/
structure TcpConnection.Sound (c : TcpConnection β) : Prop where
  fd : c.channel.fd = c.sockFd
  closeCallback : c.closeCallback = true
  closed : ¬c.Live → c.state = .kDisconnected ∧ c.channel.events = kNoneEvent ∧
    c.channel.status = .kNew

/-- Every connection is in its place. -/
abbrev Placed (s : EventLoop β) : Prop :=
  Partitioned (· < s.made) (fun i => (s.conn i).Live) (fun i => (s.conn i).sockFd)
    s.connections s.connectionsPool

/-- Only connection `i` changes. -/
theorem sameBut_update (s : EventLoop β) (i : ℕ) (c : TcpConnection β) :
    SameBut i (fun j => (s.conn j).Live) (fun j => (Function.update s.conn i c j).Live)
      (fun j => (s.conn j).sockFd) (fun j => (Function.update s.conn i c j).sockFd) := by
  intro j hj
  simp [Function.update_of_ne hj]

namespace Placed

variable {s : EventLoop β} {i : ℕ} {c : TcpConnection β}

theorem start [Inhabited β] : Placed (EventLoop.start : EventLoop β) :=
  ⟨fun _ h => absurd h (Nat.not_lt_zero _), fun _ h => absurd h (Nat.not_lt_zero _), nofun, nofun⟩

/-- A connection that goes on as live or closed as it was stays where it is. -/
theorem same (h : Placed s) (hlive : c.Live ↔ (s.conn i).Live)
    (hfd : c.sockFd = (s.conn i).sockFd) :
    Placed { s with conn := Function.update s.conn i c } := by
  refine h.stay (fun j => ?_) fun j => ?_
  · by_cases heq : j = i
    · subst heq
      simpa using hlive
    · exact (sameBut_update s i c j heq).1
  · by_cases heq : j = i
    · subst heq
      simpa using hfd
    · exact (sameBut_update s i c j heq).2

/-- A connection that is closed goes to the pool. -/
theorem released (h : Placed s) (hi : i < s.made) (hlive : (s.conn i).Live) (hdead : ¬c.Live) :
    Placed { s with
      conn := Function.update s.conn i c
      connectionsPool := s.connectionsPool ++ [s.connections (s.conn i).sockFd]
      connections := Function.update s.connections (s.conn i).sockFd none } :=
  h.release hi hlive (by simpa using hdead) (sameBut_update s i c)

/-- The last connection of the pool goes back to `connections_`. -/
theorem reused (h : Placed s) {sockFd : ℤ}
    (hfree : ∀ i < s.made, (s.conn i).Live → (s.conn i).sockFd ≠ sockFd)
    (hlast : s.connectionsPool.getLast? = some (some i)) (hlive : c.Live)
    (hfd : c.sockFd = sockFd) :
    Placed { s.reused sockFd i with conn := Function.update s.conn i c } :=
  h.reuse hlast (h.free hfree) (by simpa using hlive) (by simpa using hfd) (sameBut_update s i c)

/-- A new connection goes to `connections_`. -/
theorem extended [Inhabited β] (h : Placed s) {sockFd : ℤ}
    (hfree : ∀ i < s.made, (s.conn i).Live → (s.conn i).sockFd ≠ sockFd)
    (connectCallback messageCallback writeCompleteCallback : Option Callback) (hlive : c.Live)
    (hfd : c.sockFd = sockFd) :
    Placed { s.extended sockFd connectCallback messageCallback writeCompleteCallback with
      conn := Function.update s.conn s.made c } := by
  refine h.add (Nat.lt_irrefl _) (h.free hfree) (fun j => ?_) (by simpa using hlive)
    (by simpa using hfd) (sameBut_update s s.made c)
  simp only [EventLoop.extended]
  omega

end Placed

/-- Every connection is sound and in its place. -/
structure Owned (s : EventLoop β) : Prop where
  place : Partitioned (· < s.made) (fun i => (s.conn i).Live) (fun i => (s.conn i).sockFd)
    s.connections s.connectionsPool
  sound : ∀ i < s.made, (s.conn i).Sound

namespace Owned

variable {s : EventLoop β} {i : ℕ}

theorem start [Inhabited β] : Owned (EventLoop.start : EventLoop β) where
  place := Placed.start
  sound _ h := absurd h (Nat.not_lt_zero _)

theorem sound_update (h : Owned s) {c : TcpConnection β} (hc : c.Sound) :
    ∀ j < s.made, (Function.update s.conn i c j).Sound := by
  intro j hj
  by_cases heq : j = i
  · rw [heq, Function.update_self]
    exact hc
  · rw [Function.update_of_ne heq]
    exact h.sound j hj

/-- A connection that goes on as live or closed as it was stays where it is. -/
theorem same (h : Owned s) {c : TcpConnection β} (hc : c.Sound) (hlive : c.Live ↔ (s.conn i).Live)
    (hfd : c.sockFd = (s.conn i).sockFd) : Owned { s with conn := Function.update s.conn i c } where
  place := Placed.same h.place hlive hfd
  sound := h.sound_update hc

/-- **A close** sends the connection to the pool. -/
theorem released (h : Owned s) (hi : i < s.made) (hlive : (s.conn i).Live) :
    Owned (s.released i) := by
  have hc := h.sound i hi
  have hdead : ¬(s.conn i).closed.Live := by simp [Live, closed]
  have hplace := Placed.released h.place hi hlive hdead
  rw [← hc.fd] at hplace
  exact ⟨hplace, h.sound_update ⟨hc.fd, hc.closeCallback, fun _ => ⟨rfl, rfl, rfl⟩⟩⟩

/-- A connection that has just been established. -/
theorem sound_established {c : TcpConnection β} (hfd : c.channel.fd = c.sockFd)
    (hcb : c.closeCallback = true) : c.established.Sound :=
  ⟨hfd, hcb, fun h => absurd (.inl rfl) h⟩

/-- **A pooled connection** goes back to `connections_`. -/
theorem reused (h : Owned s) {sockFd : ℤ}
    (hfree : ∀ i < s.made, (s.conn i).Live → (s.conn i).sockFd ≠ sockFd)
    (hlast : s.connectionsPool.getLast? = some (some i)) :
    Owned { s.reused sockFd i with
      conn := Function.update (s.reused sockFd i).conn i
        ((s.reused sockFd i).conn i).established } := by
  obtain ⟨_, ⟨⟩, hi, -⟩ := h.place.last_spare hlast
  have hconn : (s.reused sockFd i).conn i = (connectReset sockFd (s.conn i)).state :=
    Function.update_self _ _ _
  have hc := h.sound i hi
  rw [hconn]
  simp only [EventLoop.reused, Function.update_idem]
  exact ⟨Placed.reused h.place hfree hlast (.inl rfl) rfl,
    h.sound_update (sound_established rfl hc.closeCallback)⟩

/-- **A new connection** goes to `connections_`. -/
theorem extended [Inhabited β] (h : Owned s) {sockFd : ℤ}
    (hfree : ∀ i < s.made, (s.conn i).Live → (s.conn i).sockFd ≠ sockFd)
    (connectCallback messageCallback writeCompleteCallback : Option Callback) :
    Owned { s.extended sockFd connectCallback messageCallback writeCompleteCallback with
      conn := Function.update
        (s.extended sockFd connectCallback messageCallback writeCompleteCallback).conn s.made
        ((s.extended sockFd connectCallback messageCallback writeCompleteCallback).conn
          s.made).established } := by
  have hconn : (s.extended sockFd connectCallback messageCallback writeCompleteCallback).conn
      s.made = newConn sockFd connectCallback messageCallback writeCompleteCallback :=
    Function.update_self _ _ _
  rw [hconn]
  simp only [EventLoop.extended, Function.update_idem]
  refine ⟨Placed.extended h.place hfree connectCallback messageCallback writeCompleteCallback
    (.inl rfl) rfl, fun j hj => ?_⟩
  simp only at hj ⊢
  by_cases heq : j = s.made
  · rw [heq, Function.update_self]
    exact sound_established rfl rfl
  · rw [Function.update_of_ne heq]
    exact h.sound j (by omega)

/-- A call that closes nothing and leaves the connection live or closed as it was. -/
theorem onConnection (h : Owned s) {x : Conn β Unit}
    (hquiet : ∀ e ∈ (x (s.conn i)).trace, e.isRecycle = false)
    (hsound : (x (s.conn i)).state.Sound) (hlive : (x (s.conn i)).state.Live ↔ (s.conn i).Live)
    (hfd : (x (s.conn i)).state.sockFd = (s.conn i).sockFd) :
    Owned (EventLoop.onConnection i x s).state := by
  obtain ⟨s', hs', hp, hpool, hconnections⟩ := onConnection_quiet i x s hquiet
  have hsame := h.same hsound hlive hfd
  have hplace := hsame.place
  have hall := hsame.sound
  rw [← hp.conn, ← hp.made, ← hpool, ← hconnections] at hplace
  rw [← hp.conn, ← hp.made] at hall
  rw [hs']
  exact ⟨hplace, hall⟩

end Owned

/-! ## Any run -/

/-- `i` is in `connections_`, under its descriptor. -/
structure InConnections (s : EventLoop β) (i : ℕ) : Prop where
  key : ∀ fd, s.connections fd = some i ↔ fd = (s.conn i).sockFd
  channel : (s.conn i).channel.fd = (s.conn i).sockFd
  state : (s.conn i).state = .kConnected ∨ (s.conn i).state = .kDisconnecting
  pool : some i ∉ s.connectionsPool

/-- `i` is in `connectionsPool`. -/
structure InPool (s : EventLoop β) (i : ℕ) : Prop where
  once : s.connectionsPool.count (some i) = 1
  key : ∀ fd, s.connections fd ≠ some i
  state : (s.conn i).state = .kDisconnected
  events : (s.conn i).channel.events = kNoneEvent
  status : (s.conn i).channel.status = .kNew

/-- Every connection is in one of the two, and no place of the pool is empty. -/
structure Partition (s : EventLoop β) : Prop where
  either : ∀ i < s.made, InConnections s i ∨ InPool s i
  notBoth : ∀ i, ¬(InConnections s i ∧ InPool s i)
  pool : none ∉ s.connectionsPool

theorem Owned.partition {s : EventLoop β} (h : Owned s) : Partition s where
  either i hi := by
    by_cases hlive : (s.conn i).Live
    · have hheld := h.place.holds i hi hlive
      exact .inl ⟨hheld.key, (h.sound i hi).fd, hlive, hheld.pool⟩
    · have hpooled := h.place.keeps i hi hlive
      obtain ⟨hstate, hevents, hstatus⟩ := (h.sound i hi).closed hlive
      exact .inr ⟨hpooled.once, hpooled.key, hstate, hevents, hstatus⟩
  notBoth i := by
    rintro ⟨hin, hpool⟩
    have := hin.state
    simp [hpool.state] at this
  pool := h.place.none_not_mem

/-- What a call of `createConnection` finds: the key free, and at the end of the pool a connection
that serves no descriptor. -/
def CreatesFree (s : EventLoop β) : PoolOp → Prop
  | .createConnection sockFd .. => s.connections sockFd = none ∧
    ∀ x ∈ s.connectionsPool.getLast?, ∃ i, x = some i ∧ InPool s i
  | _ => True

/-- The call throws because the user has given `createConnection` an empty function. -/
def GivenNoCallback : PoolOp → Prop
  | .createConnection _ connectCallback .. => connectCallback = none
  | _ => False

/-- Every connection so far was given a connection callback. -/
def Notified (s : EventLoop β) : Prop :=
  ∀ i < s.made, (s.conn i).connectionCallback.isSome = true

section Notified

variable {s : EventLoop β} {i : ℕ}

theorem Notified.update (h : Notified s) {c : TcpConnection β}
    (hc : c.connectionCallback.isSome = true) :
    Notified { s with conn := Function.update s.conn i c } := by
  intro j hj
  by_cases heq : j = i
  · subst heq
    simpa using hc
  · simpa [Function.update_of_ne heq] using h j hj

/-- What leaves the callback of a connection set. -/
theorem Notified.onConnection (h : Notified s) {x : Conn β Unit}
    (hc : (x (s.conn i)).state.connectionCallback.isSome = true) :
    Notified (EventLoop.onConnection i x s).state := by
  obtain ⟨s', hs', hp⟩ := onConnection_spec i x s
  rw [hs', Notified, hp.conn, hp.made]
  exact h.update hc

end Notified

theorem not_recycle_of_mem_shutdownCalls {onLoop : Bool} {c : TcpConnection β} {e : Effect β}
    (he : e ∈ c.shutdownCalls onLoop) : e.isRecycle = false := by
  rw [shutdownCalls, halfClose] at he
  split at he
  · split at he
    · split at he
      · cases he
      · rw [List.mem_singleton.1 he]
        rfl
    · rw [List.mem_singleton.1 he]
      rfl
  · cases he

/-- What one call does: it keeps the invariant, and returns unless it was given no function to
notify the user with. -/
structure PoolOp.Kept [Inhabited β] (op : PoolOp) (s : EventLoop β) : Prop where
  owned : Owned (op.exec s).state
  val : (op.exec s).val = .ok () ∧ Notified (op.exec s).state ∨
    (op.exec s).val = .error .badFunctionCall ∧ GivenNoCallback op

namespace PoolOp

variable [Inhabited β] {s : EventLoop β}

theorem kept_createConnection (h : Owned s) (hcb : Notified s) {sockFd : ℤ}
    (hfree : ∀ i < s.made, (s.conn i).Live → (s.conn i).sockFd ≠ sockFd)
    (connectCallback messageCallback writeCompleteCallback : Option Callback) :
    (createConnection sockFd connectCallback messageCallback writeCompleteCallback).Kept s := by
  rcases hpool : s.connectionsPool.getLast? with _ | _ | i
  · let s₁ := s.extended sockFd connectCallback messageCallback writeCompleteCallback
    have hnew : s₁.conn s.made =
        newConn sockFd connectCallback messageCallback writeCompleteCallback :=
      Function.update_self _ _ _
    have hconnecting : (s₁.conn s.made).state = .kConnecting := by
      rw [hnew]
      rfl
    have hexec : exec (createConnection sockFd connectCallback messageCallback
        writeCompleteCallback) s = (EventLoop.onConnection s.made connectEstablished s₁).after
          [⟨s.made, s.life s.made, .setKeepAlive sockFd⟩] :=
      createConnection_new s _ _ _ _ hpool
    obtain ⟨hstate, hval⟩ := onConnection_connectEstablished hconnecting
    refine ⟨?_, ?_⟩
    · rw [hexec, Outcome.state_after, hstate]
      exact h.extended hfree _ _ _
    · rw [hexec, Outcome.state_after, Outcome.val_after, hstate, hval, hnew]
      cases connectCallback with
      | none => exact .inr ⟨rfl, rfl⟩
      | some cb =>
        refine .inl ⟨rfl, fun j hj => ?_⟩
        simp only [s₁, EventLoop.extended, Function.update_idem] at hj ⊢
        by_cases heq : j = s.made
        · subst heq
          rw [Function.update_self]
          rfl
        · rw [Function.update_of_ne heq]
          exact hcb j (by omega)
  · exact absurd (List.mem_of_getLast? hpool) h.place.none_not_mem
  · obtain ⟨_, ⟨⟩, hi, -⟩ := h.place.last_spare hpool
    let s₁ := s.reused sockFd i
    have hreset : s₁.conn i = (connectReset sockFd (s.conn i)).state := Function.update_self _ _ _
    have hconnecting : (s₁.conn i).state = .kConnecting := by
      rw [hreset]
      rfl
    have hset : (s₁.conn i).connectionCallback.isSome = true := by
      rw [hreset]
      exact hcb i hi
    have hexec : exec (createConnection sockFd connectCallback messageCallback
        writeCompleteCallback) s = (EventLoop.onConnection i connectEstablished s₁).after
          [⟨i, s.life i + 1, .setKeepAlive sockFd⟩] :=
      createConnection_reuse s _ _ _ _ hpool
    obtain ⟨hstate, hval⟩ := onConnection_connectEstablished hconnecting
    refine ⟨?_, .inl ?_⟩
    · rw [hexec, Outcome.state_after, hstate]
      exact h.reused hfree hpool
    · rw [hexec, Outcome.state_after, Outcome.val_after, hstate, hval, if_pos hset]
      have hall : Notified s₁ := hcb.update (hcb i hi)
      exact ⟨rfl, hall.update hset⟩

theorem kept_handleClose (h : Owned s) (hcb : Notified s) {i : ℕ} (hi : i < s.made)
    (hlive : (s.conn i).Live) : (handleClose i).Kept s := by
  obtain ⟨hval, hstate⟩ := onConnection_handleClose hlive (h.sound i hi).closeCallback
  refine ⟨?_, .inl ⟨hval, ?_⟩⟩
  · rw [exec, hstate]
    exact h.released hi hlive
  · rw [exec, hstate]
    exact hcb.update (hcb i hi)

/-- A request that returns, closes nothing and at most makes a live connection `kDisconnecting`. -/
theorem kept_onConnection (h : Owned s) (hcb : Notified s) {op : PoolOp} {i : ℕ} (hi : i < s.made)
    {x : Conn β Unit} (hop : (op.exec : LoopAct β Unit) = EventLoop.onConnection i x)
    {c : TcpConnection β} {es : List (Effect β)} (hx : x (s.conn i) = ⟨.ok (), c, es⟩)
    (hquiet : ∀ e ∈ es, e.isRecycle = false)
    (hc : c = s.conn i ∨ c = { s.conn i with state := .kDisconnecting } ∧ (s.conn i).Live) :
    op.Kept s := by
  have hsound := h.sound i hi
  have hsame : c.Sound ∧ (c.Live ↔ (s.conn i).Live) ∧ c.sockFd = (s.conn i).sockFd ∧
      c.connectionCallback = (s.conn i).connectionCallback := by
    rcases hc with rfl | ⟨rfl, hlive⟩
    · exact ⟨hsound, Iff.rfl, rfl, rfl⟩
    · have hdisconnecting : Live { s.conn i with state := .kDisconnecting } := .inr rfl
      exact ⟨⟨hsound.fd, hsound.closeCallback, fun hdead => absurd hdisconnecting hdead⟩,
        ⟨fun _ => hlive, fun _ => hdisconnecting⟩, rfl, rfl⟩
  obtain ⟨hs, hl, hfd, hset⟩ := hsame
  refine ⟨?_, .inl ⟨?_, ?_⟩⟩
  · rw [hop]
    exact h.onConnection (by rwa [hx]) (by rwa [hx]) (by rwa [hx]) (by rwa [hx])
  · rw [hop, EventLoop.onConnection, hx]
  · rw [hop]
    refine hcb.onConnection ?_
    rw [hx, hset]
    exact hcb i hi

/-- **Every allowed call** keeps the invariant. -/
theorem kept (h : Owned s) (hcb : Notified s) {op : PoolOp} (hop : op.Allowed s) : op.Kept s := by
  cases op with
  | createConnection sockFd connectCallback messageCallback writeCompleteCallback =>
    exact kept_createConnection h hcb hop _ _ _
  | handleClose i => exact kept_handleClose h hcb hop.1 hop.2
  | forceCloseInLoop i =>
    have hi : i < s.made := hop
    by_cases hlive : (s.conn i).Live
    · have hsame : (forceCloseInLoop i).exec s = (handleClose i).exec s := by
        have hcall : TcpConnection.forceCloseInLoop (s.conn i) =
            TcpConnection.handleClose (s.conn i) := by
          rw [TcpConnection.forceCloseInLoop, Act.get_bind, Act.ite_apply]
          exact if_pos hlive
        simp only [exec, EventLoop.onConnection, hcall]
      obtain ⟨howned, hval⟩ := kept_handleClose h hcb hi hlive
      exact ⟨by rwa [hsame], by rwa [hsame]⟩
    · have hnone : TcpConnection.forceCloseInLoop (s.conn i) = ⟨.ok (), s.conn i, []⟩ := by
        rw [TcpConnection.forceCloseInLoop, Act.get_bind, Act.ite_apply]
        exact if_neg hlive
      exact kept_onConnection h hcb hi rfl hnone nofun (.inl rfl)
  | shutdown i onLoop =>
    refine kept_onConnection h hcb hop rfl (shutdown_apply onLoop _)
      (fun _ => not_recycle_of_mem_shutdownCalls) ?_
    · rw [shuttingDown]
      split
      · rename_i hs
        exact .inr ⟨rfl, .inl hs⟩
      · exact .inl rfl
  | forceClose i =>
    refine kept_onConnection h hcb hop rfl (forceClose_apply _) (fun e he => ?_) ?_
    · rw [forceCloseCalls] at he
      split at he
      · rw [List.mem_singleton.1 he]
        rfl
      · cases he
    · rw [forceClosing]
      split
      · rename_i hlive
        exact .inr ⟨rfl, hlive⟩
      · exact .inl rfl

end PoolOp

/-- **Every connection is in one place**, after every run of calls that open and close
connections. The next call finds what it needs, keeps this, and passes its assertions: it returns,
unless the user has given it no function to be notified with. -/
theorem connections_partitioned [Inhabited β]
    {calls : List (Call PoolOp Abort (LifeEffect (Effect β)) (EventLoop β))} {s : EventLoop β}
    (h : Run PoolOp.exec (fun _ call => call.input.Allowed call.before) EventLoop.start calls s) :
    Partition s ∧ ∀ op : PoolOp, op.Allowed s →
      CreatesFree s op ∧ Partition (op.exec s).state ∧
        ((op.exec s).val = .ok () ∨
          (op.exec s).val = .error .badFunctionCall ∧ GivenNoCallback op) := by
  have hinv : Owned s ∧ Notified s := by
    refine h.invariant (I := fun _ s => Owned s ∧ Notified s)
      ⟨.start, fun _ hi => absurd hi (Nat.not_lt_zero _)⟩ ?_
    rintro calls s op ⟨howned, hcb⟩ hop hok
    have hkept : op.Kept s := PoolOp.kept howned hcb hop
    rcases hkept.val with ⟨-, hcb'⟩ | ⟨herr, -⟩
    · exact ⟨hkept.owned, hcb'⟩
    · rw [hok] at herr
      cases herr
  obtain ⟨howned, hcb⟩ := hinv
  refine ⟨howned.partition, fun op hop => ?_⟩
  have hkept := PoolOp.kept howned hcb hop
  refine ⟨?_, hkept.owned.partition, hkept.val.imp And.left id⟩
  cases op with
  | createConnection sockFd connectCallback messageCallback writeCompleteCallback =>
    refine ⟨howned.place.free hop, fun x hx => ?_⟩
    obtain ⟨i, rfl, hi, hidle⟩ := howned.place.last_spare hx
    refine ⟨i, rfl, (howned.partition.either i hi).resolve_left fun hin => hidle hin.state⟩
  | _ => trivial

/-- Two connections are opened and closed; the socket of the first comes again, and goes to the
object closed last. -/
theorem connections_partitioned_of_reuse :
    ∃ calls s, Run (PoolOp.exec (β := ℕ)) (fun _ call => call.input.Allowed call.before)
        EventLoop.start calls s ∧ s.connections 5 = some 1 ∧
      (Partition s ∧ ∀ op : PoolOp, op.Allowed s →
        CreatesFree s op ∧ Partition (op.exec s).state ∧
          ((op.exec s).val = .ok () ∨
            (op.exec s).val = .error .badFunctionCall ∧ GivenNoCallback op)) := by
  have hrun : Run (PoolOp.exec (β := ℕ)) (fun _ call => call.input.Allowed call.before)
      EventLoop.start _ _ :=
    run_replay [.createConnection 5 (some 0) (some 1) none,
      .createConnection 6 (some 0) (some 1) none, .handleClose 0, .shutdown 1 true, .forceClose 1,
      .forceCloseInLoop 1, .forceCloseInLoop 0, .createConnection 5 (some 0) (some 1) none]
      (by decide +kernel)
  exact ⟨_, _, hrun, by decide +kernel, connections_partitioned hrun⟩

end Cannet.Net
