import Cannet.Foundations.Simulation
import Cannet.Net.Loop.Dispatch
import Cannet.Net.Loop.Interest

/-!
# The cycle of a loop

`EventLoop::loop` as the code has it: a call of `Epoll::poll`, `handleEvent` of each of
`activeChannels_` in turn, `runFunctors`. The poller hands out addresses of channels, and between
the poll and its turn a channel may have been closed, or put in the service of another socket. It
has not (`events_find_their_connection`): while there are active channels left nothing runs but
callbacks of other channels, and those close no connection but their own.

A cycle is a run of the loop (`Cycle.refines`): the callbacks that `handleEvent` makes are its
`handleEvent` steps. What `fillActiveChannels` writes into `revents_` is kept here with the active
channels, since nothing else reads it; the `life` and the `fd` that go with it say what the event
was reported for, and the code has neither. The channels of the wakeup descriptor, of the timers
and of the acceptor have no effect on a connection but what the functions they call ask for, which
are steps of their own.
-/

namespace Cannet.Net

open Foundations EventLoop TcpConnection

variable {β : Type}

/-- A channel of the loop. -/
inductive LoopChannel
  | connection (conn : ℕ)
  | wakeupChannel
  | timerFdChannel
  | acceptChannel
  deriving DecidableEq, Repr

/-- What `epoll_wait` reports: of which descriptor, with the address it was registered with. -/
structure PollEvent where
  fd : ℤ
  channel : LoopChannel
  events : BitVec 32
  deriving DecidableEq, Repr

/-- A channel in `activeChannels_`, with what the poller wrote into it. -/
structure PolledChannel where
  channel : LoopChannel
  revents : BitVec 32
  fd : ℤ
  life : ℕ
  deriving DecidableEq, Repr

structure LoopCycle (β : Type) where
  eventLoop : EventLoop β
  /-- `events_.size()` of the poller. -/
  eventsSize : ℕ
  /-- What is left of `activeChannels_`. -/
  activeChannels : List PolledChannel
  /-- The connection whose `handleEvent` is running, with the callbacks it has still to make. -/
  handling : Option (ℕ × List (ChannelCallback β))

/-- A call on a loop in its cycle. -/
abbrev CycleAct (β α : Type) := Act Abort (LifeEffect (Effect β)) (LoopCycle β) α

namespace LoopCycle

def kInitEventSize : ℕ := 16

/-- The entry of an event in `activeChannels_`. -/
def polledChannel (s : EventLoop β) (e : PollEvent) : PolledChannel where
  channel := e.channel
  revents := e.events
  fd := e.fd
  life :=
    match e.channel with
    | .connection conn => s.life conn
    | _ => 0

/-- `Epoll::fillActiveChannels`. -/
def fillActiveChannels (events : List PollEvent) : CycleAct β Unit :=
  Act.modify fun s =>
    { s with activeChannels := s.activeChannels ++ events.map (polledChannel s.eventLoop) }

/-- `Epoll::poll`, with `activeChannels_` cleared before. `events` is what `epoll_wait` has put in
`events_`; it is empty if the call failed. -/
def poll (events : List PollEvent) : CycleAct β Unit := do
  Act.modify fun s => { s with activeChannels := [] }
  let s ← Act.get
  if 0 < events.length then
    fillActiveChannels events
    if events.length = s.eventsSize then
      Act.modify fun s => { s with eventsSize := s.eventsSize * 2 }

/-- The entry into `handleEvent` of the next active channel. -/
def handleEvent (r : ReadRet β) (w : SysRet) : CycleAct β Unit := do
  let s ← Act.get
  match s.activeChannels with
  | [] => pure ()
  | ch :: rest =>
    Act.modify fun s =>
      { s with
        activeChannels := rest
        handling :=
          match ch.channel with
          | .connection conn => some (conn, dispatch ch.revents r w)
          | _ => none }

/-- A step of the loop that the cycle is made of. -/
def onEventLoop (x : LoopAct β Unit) : CycleAct β Unit :=
  Act.zoom (·.eventLoop) (fun eventLoop s => { s with eventLoop := eventLoop }) x

/-- The next callback of the `handleEvent` that is running, or its return after the last one. -/
def callback [Inhabited β] : CycleAct β Unit := do
  let s ← Act.get
  match s.handling with
  | some (conn, next :: rest) =>
    Act.modify fun s => { s with handling := some (conn, rest) }
    onEventLoop (EventLoop.onConnection conn next.call)
  | _ => Act.modify fun s => { s with handling := none }

/-- A loop that has not polled yet. -/
def start [Inhabited β] : LoopCycle β := ⟨EventLoop.start, kInitEventSize, [], none⟩

end LoopCycle

inductive CycleOp (β : Type)
  | poll (events : List PollEvent)
  | handleEvent (r : ReadRet β) (w : SysRet)
  | callback
  | newConnection (sockFd : ℤ)
      (connectCallback messageCallback writeCompleteCallback : Option Callback)
  | request (conn : ℕ) (r : Request β)
  | swapFunctors
  | runFunctor (w f : SysRet)

open LoopCycle in
def CycleOp.exec [Inhabited β] : CycleOp β → CycleAct β Unit
  | poll events => LoopCycle.poll events
  | handleEvent r w => LoopCycle.handleEvent r w
  | callback => LoopCycle.callback
  | newConnection sockFd connectCallback messageCallback writeCompleteCallback =>
    onEventLoop
      (EventLoop.newConnection sockFd connectCallback messageCallback writeCompleteCallback)
  | request conn r => onEventLoop (EventLoop.onConnection conn r.call)
  | swapFunctors => onEventLoop EventLoop.swapFunctors
  | runFunctor w f => onEventLoop (EventLoop.runFunctor w f)

abbrev CycleCall (β : Type) := Call (CycleOp β) Abort (LifeEffect (Effect β)) (LoopCycle β)

/-- What `epoll_wait` may report: each descriptor once, no more than there is room for, and the
channel of a connection for a descriptor that is registered with it. -/
def Reported (es : List (LifeEffect (Effect β))) (size : ℕ) (events : List PollEvent) : Prop :=
  (events.map (·.fd)).Nodup ∧ events.length ≤ size ∧ ∀ e ∈ events,
    match e.channel with
    | .connection conn => polled es e.fd = some conn
    | _ => True

/-- The order of `loop()`. Requests may come at any time, from the functions that are running or
from other threads. -/
def InCycle (calls : List (CycleCall β)) (call : CycleCall β) : Prop :=
  let s := call.before
  match call.input with
  | .poll events =>
    (s.activeChannels.isEmpty = true ∧ s.handling.isSome = false) ∧
      s.eventLoop.running.isEmpty = true ∧ Reported (traceOf calls) s.eventsSize events
  | .handleEvent .. => s.activeChannels.isEmpty = false ∧ s.handling.isSome = false
  | .callback => s.handling.isSome = true
  | .newConnection .. => True
  | .request conn _ => conn < s.eventLoop.made
  | .swapFunctors =>
    (s.activeChannels.isEmpty = true ∧ s.handling.isSome = false) ∧
      s.eventLoop.running.isEmpty = true
  | .runFunctor .. => s.eventLoop.running.isEmpty = false

instance (es : List (LifeEffect (Effect β))) (size : ℕ) (events : List PollEvent) :
    Decidable (Reported es size events) :=
  have : DecidablePred fun e : PollEvent => match e.channel with
      | .connection conn => polled es e.fd = some conn
      | _ => True := fun e =>
    match e with
    | ⟨_, .connection _, _⟩ => inferInstanceAs (Decidable (_ = _))
    | ⟨_, .wakeupChannel, _⟩ | ⟨_, .timerFdChannel, _⟩ | ⟨_, .acceptChannel, _⟩ => isTrue trivial
  inferInstanceAs (Decidable (_ ∧ _ ∧ _))

instance : ∀ (calls : List (CycleCall β)) (call : CycleCall β), Decidable (InCycle calls call)
  | _, ⟨.poll _, _, _⟩ => inferInstanceAs (Decidable (_ ∧ _ ∧ _))
  | _, ⟨.handleEvent .., _, _⟩ => inferInstanceAs (Decidable (_ ∧ _))
  | _, ⟨.callback, _, _⟩ => inferInstanceAs (Decidable (_ = _))
  | _, ⟨.newConnection .., _, _⟩ => isTrue trivial
  | _, ⟨.request .., _, _⟩ => inferInstanceAs (Decidable (_ < _))
  | _, ⟨.swapFunctors, _, _⟩ => inferInstanceAs (Decidable (_ ∧ _))
  | _, ⟨.runFunctor .., _, _⟩ => inferInstanceAs (Decidable (_ = _))

/-! ## A cycle is a run of the loop -/

/-- The step of the loop that a step of its cycle makes, if any. -/
def CycleOp.loopOp (s : LoopCycle β) : CycleOp β → Option (LoopOp β)
  | poll _ | handleEvent .. => none
  | callback =>
    match s.handling with
    | some (conn, next :: _) => some (.handleEvent conn next)
    | _ => none
  | newConnection sockFd connectCallback messageCallback writeCompleteCallback =>
    some (.newConnection sockFd connectCallback messageCallback writeCompleteCallback)
  | request conn r => some (.request conn r)
  | swapFunctors => some .swapFunctors
  | runFunctor w f => some (.runFunctor w f)

namespace LoopCycle

variable {s : LoopCycle β}

/-- What happens to the loop in one step of its cycle. -/
structure Follows (s : LoopCycle β) (o : Outcome Abort (LifeEffect (Effect β)) (LoopCycle β) Unit)
    (o' : Outcome Abort (LifeEffect (Effect β)) (EventLoop β) Unit) : Prop where
  val : o.val = o'.val
  eventLoop : o.state.eventLoop = o'.state
  trace : o.trace = o'.trace

theorem follows_onEventLoop (x : LoopAct β Unit) :
    Follows s (onEventLoop x s) (x s.eventLoop) := ⟨rfl, rfl, rfl⟩

/-- `poll` in closed form. -/
theorem poll_apply (events : List PollEvent) :
    poll events s = ⟨.ok (), { s with
      activeChannels := events.map (polledChannel s.eventLoop)
      eventsSize :=
        if 0 < events.length ∧ events.length = s.eventsSize then s.eventsSize * 2
        else s.eventsSize }, []⟩ := by
  rw [poll, Act.modify_bind, Act.get_bind, Act.ite_apply]
  by_cases hpos : 0 < events.length
  · rw [if_pos hpos, fillActiveChannels, Act.modify_bind, Act.ite_apply]
    by_cases hfull : events.length = s.eventsSize
    · rw [if_pos hfull, if_pos ⟨hpos, hfull⟩]
      rfl
    · rw [if_neg hfull, if_neg fun h => hfull h.2]
      rfl
  · rw [if_neg hpos, if_neg fun h => hpos h.1]
    obtain rfl : events = [] := List.eq_nil_of_length_eq_zero (by omega)
    rfl

theorem handleEvent_cons (r : ReadRet β) (w : SysRet) {ch : PolledChannel}
    {rest : List PolledChannel} (h : s.activeChannels = ch :: rest) :
    handleEvent r w s = ⟨.ok (), { s with
      activeChannels := rest
      handling :=
        match ch.channel with
        | .connection conn => some (conn, dispatch ch.revents r w)
        | _ => none }, []⟩ := by
  rw [handleEvent, Act.get_bind, h]
  rfl

theorem handleEvent_nil (r : ReadRet β) (w : SysRet) (h : s.activeChannels = []) :
    handleEvent r w s = ⟨.ok (), s, []⟩ := by
  rw [handleEvent, Act.get_bind, h]
  rfl

variable [Inhabited β]

theorem callback_next {conn : ℕ} {next : ChannelCallback β} {rest : List (ChannelCallback β)}
    (h : s.handling = some (conn, next :: rest)) :
    callback s = onEventLoop (EventLoop.onConnection conn next.call)
      { s with handling := some (conn, rest) } := by
  rw [callback, Act.get_bind, h]
  rfl

theorem callback_last (h : ∀ conn next rest, s.handling ≠ some (conn, next :: rest)) :
    callback s = ⟨.ok (), { s with handling := none }, []⟩ := by
  rw [callback, Act.get_bind]
  rcases hh : s.handling with _ | ⟨conn, _ | ⟨next, rest⟩⟩
  · rfl
  · rfl
  · exact absurd hh (h conn next rest)

/-- **A step of the cycle** is a step of the loop, or leaves it as it is. -/
theorem follows (op : CycleOp β) :
    match op.loopOp s with
    | some lop => Follows s (op.exec s) (lop.exec s.eventLoop)
    | none => Follows s (op.exec s) ⟨.ok (), s.eventLoop, []⟩ := by
  cases op with
  | poll events =>
    change Follows s (poll events s) _
    rw [poll_apply]
    exact ⟨rfl, rfl, rfl⟩
  | handleEvent r w =>
    change Follows s (handleEvent r w s) _
    rcases hactive : s.activeChannels with _ | ⟨ch, rest⟩
    · rw [handleEvent_nil r w hactive]
      exact ⟨rfl, rfl, rfl⟩
    · rw [handleEvent_cons r w hactive]
      exact ⟨rfl, rfl, rfl⟩
  | callback =>
    rw [CycleOp.exec]
    rcases hh : s.handling with _ | ⟨conn, _ | ⟨next, rest⟩⟩
    · rw [callback_last (by simp [hh])]
      simp only [CycleOp.loopOp, hh]
      exact ⟨rfl, rfl, rfl⟩
    · rw [callback_last (by simp [hh])]
      simp only [CycleOp.loopOp, hh]
      exact ⟨rfl, rfl, rfl⟩
    · rw [callback_next hh]
      simp only [CycleOp.loopOp, hh]
      exact ⟨rfl, rfl, rfl⟩
  | newConnection | request | swapFunctors | runFunctor => exact follows_onEventLoop _

/-- What a step of the cycle does to the events that are still to be dealt with. -/
inductive Proceeds (s : LoopCycle β) : CycleOp β → LoopCycle β → Prop
  | poll (events : List PollEvent) (eventsSize : ℕ) :
      Proceeds s (.poll events) { s with
        activeChannels := events.map (polledChannel s.eventLoop)
        eventsSize := eventsSize }
  | entered (r : ReadRet β) (w : SysRet) {ch : PolledChannel} {rest : List PolledChannel} {i : ℕ}
      (h : s.activeChannels = ch :: rest) (hch : ch.channel = .connection i) :
      Proceeds s (.handleEvent r w)
        { s with activeChannels := rest, handling := some (i, dispatch ch.revents r w) }
  | passed (r : ReadRet β) (w : SysRet) {ch : PolledChannel} {rest : List PolledChannel}
      (h : s.activeChannels = ch :: rest) :
      Proceeds s (.handleEvent r w) { s with activeChannels := rest, handling := none }
  | callback {i : ℕ} {next : ChannelCallback β} {rest : List (ChannelCallback β)}
      (h : s.handling = some (i, next :: rest)) :
      Proceeds s .callback
        { s with
          handling := some (i, rest)
          eventLoop := (EventLoop.onConnection i next.call s.eventLoop).state }
  | returned : Proceeds s .callback { s with handling := none }
  | loop (op : CycleOp β) (lop : LoopOp β) (hop : op ≠ .callback) (h : op.loopOp s = some lop) :
      Proceeds s op { s with eventLoop := (lop.exec s.eventLoop).state }

theorem proceeds {calls : List (CycleCall β)} (op : CycleOp β)
    (hop : InCycle calls (Call.make CycleOp.exec op s)) : Proceeds s op (op.exec s).state := by
  cases op with
  | poll events =>
    rw [CycleOp.exec, poll_apply]
    exact .poll events _
  | handleEvent r w =>
    rw [CycleOp.exec]
    rcases hactive : s.activeChannels with _ | ⟨ch, rest⟩
    · have hne : s.activeChannels.isEmpty = false := hop.1
      rw [hactive] at hne
      cases hne
    · rw [handleEvent_cons r w hactive]
      cases hch : ch.channel with
      | connection i => exact .entered r w hactive hch
      | _ => exact .passed r w hactive
  | callback =>
    rw [CycleOp.exec]
    rcases hh : s.handling with _ | ⟨i, _ | ⟨next, rest⟩⟩
    · rw [callback_last (by simp [hh])]
      exact .returned
    · rw [callback_last (by simp [hh])]
      exact .returned
    · rw [callback_next hh]
      exact .callback hh
  | newConnection sockFd connectCallback messageCallback writeCompleteCallback =>
    exact .loop (.newConnection sockFd connectCallback messageCallback writeCompleteCallback) _
      nofun rfl
  | request i r => exact .loop (.request i r) _ nofun rfl
  | swapFunctors => exact .loop .swapFunctors _ nofun rfl
  | runFunctor w f => exact .loop (.runFunctor w f) _ nofun rfl

/-! ### The connections that are dealt with -/

omit [Inhabited β] in
theorem running_onConnection (i : ℕ) (x : Conn β Unit) (s : EventLoop β) :
    (EventLoop.onConnection i x s).state.running = s.running := by
  obtain ⟨s', hs', hp⟩ := onConnection_spec i x s
  rw [hs']
  exact hp.running

theorem made_le_createConnection (sockFd : ℤ)
    (connectCallback messageCallback writeCompleteCallback : Option Callback) (s : EventLoop β) :
    s.made ≤ (EventLoop.createConnection sockFd connectCallback messageCallback
      writeCompleteCallback s).state.made := by
  rcases hpool : s.connectionsPool.getLast? with _ | _ | i
  · rw [createConnection_new s _ _ _ _ hpool, Outcome.state_after, made_onConnection]
    exact Nat.le_succ _
  · exact Nat.le_of_eq (by rw [createConnection_null s _ _ _ _ hpool])
  · rw [createConnection_reuse s _ _ _ _ hpool, Outcome.state_after, made_onConnection]
    exact Nat.le_refl _

/-- Connections are made, and never unmade. -/
theorem made_le (lop : LoopOp β) (s : EventLoop β) : s.made ≤ (lop.exec s).state.made := by
  cases lop with
  | newConnection | swapFunctors => exact Nat.le_refl _
  | handleEvent i callback => exact Nat.le_of_eq (made_onConnection i _ s).symm
  | request i r => exact Nat.le_of_eq (made_onConnection i _ s).symm
  | runFunctor w f =>
    rw [LoopOp.exec]
    cases hrunning : s.running with
    | nil => exact Nat.le_of_eq (by rw [runFunctor_nil w f hrunning])
    | cons functor rest =>
      rw [runFunctor_cons w f hrunning]
      cases functor with
      | createConnection sockFd connectCallback messageCallback writeCompleteCallback =>
        exact made_le_createConnection sockFd _ _ _ { s with running := rest }
      | connection i life g =>
        exact Nat.le_of_eq (made_onConnection i (g.call w f) { s with running := rest }).symm

omit [Inhabited β] in
theorem exists_of_registered {es : List (LifeEffect (Effect β))} {set : PollSet} {fd : ℤ} {i : ℕ}
    (h : es.foldl pollEffect set fd = some i) : (∃ e ∈ es, e.obj = i) ∨ set fd = some i := by
  induction es generalizing set with
  | nil => exact .inr h
  | cons e es ih =>
    rcases ih h with ⟨e', he', hobj⟩ | hset
    · exact .inl ⟨e', List.mem_cons_of_mem e he', hobj⟩
    · have howned : i = e.obj ∨ set fd = some i := poll_own hset
      rcases howned with rfl | hset
      · exact .inl ⟨e, List.mem_cons_self, rfl⟩
      · exact .inr hset

omit [Inhabited β] in
/-- A registration is of a connection that has made one. -/
theorem exists_of_polled {es : List (LifeEffect (Effect β))} {fd : ℤ} {i : ℕ}
    (h : polled es fd = some i) : ∃ e ∈ es, e.obj = i :=
  (exists_of_registered h).resolve_right nofun

/-- The connections that are dealt with were made, and functors run when none is. -/
structure Cycled (s : LoopCycle β) : Prop where
  phase : s.eventLoop.running.isEmpty = false →
    s.activeChannels.isEmpty = true ∧ s.handling.isSome = false
  active : ∀ ch ∈ s.activeChannels, ∀ i, ch.channel = .connection i → i < s.eventLoop.made
  handling : ∀ i rest, s.handling = some (i, rest) → i < s.eventLoop.made

theorem cycled_start : Cycled (start : LoopCycle β) :=
  ⟨fun h => (by cases h), fun _ h => (by cases h), fun _ _ h => (by cases h)⟩

omit [Inhabited β] in
theorem Cycled.idle (h : Cycled s)
    (hbusy : s.activeChannels.isEmpty = false ∨ s.handling.isSome = true) :
    s.eventLoop.running.isEmpty = true := by
  by_contra hrunning
  obtain ⟨hactive, hhandling⟩ := h.phase (Bool.eq_false_iff.2 hrunning)
  rcases hbusy with hbusy | hbusy
  · exact absurd (hactive.symm.trans hbusy) Bool.noConfusion
  · exact absurd (hhandling.symm.trans hbusy) Bool.noConfusion

theorem Cycled.step (h : Cycled s) {calls : List (CycleCall β)}
    (hbound : ∀ e ∈ traceOf calls, e.obj < s.eventLoop.made) (op : CycleOp β)
    (hop : InCycle calls (Call.make CycleOp.exec op s)) : Cycled (op.exec s).state := by
  have hp := proceeds op hop
  generalize (op.exec s).state = s' at hp ⊢
  cases hp with
  | poll events eventsSize =>
    refine ⟨fun hrunning => absurd (hop.2.1.symm.trans hrunning) Bool.noConfusion, ?_, h.handling⟩
    intro ch hch i hi
    obtain ⟨e, he, rfl⟩ := List.mem_map.1 hch
    have hreported := hop.2.2.2.2 e he
    rw [show e.channel = .connection i from hi] at hreported
    obtain ⟨e', he', rfl⟩ := exists_of_polled hreported
    exact hbound e' he'
  | entered r w hactive hch =>
    have hidle := h.idle (.inl hop.1)
    refine ⟨fun hrunning => absurd (hidle.symm.trans hrunning) Bool.noConfusion, ?_, ?_⟩
    · exact fun ch' hch' => h.active ch' (hactive ▸ List.mem_cons_of_mem _ hch')
    · intro i rest hhandling
      obtain ⟨rfl, -⟩ := Prod.mk.inj (Option.some.inj hhandling)
      exact h.active _ (hactive ▸ List.mem_cons_self) _ hch
  | passed r w hactive =>
    have hidle := h.idle (.inl hop.1)
    refine ⟨fun hrunning => absurd (hidle.symm.trans hrunning) Bool.noConfusion, ?_, nofun⟩
    exact fun ch' hch' => h.active ch' (hactive ▸ List.mem_cons_of_mem _ hch')
  | @callback i next rest hh =>
    have hidle := h.idle (.inr hop)
    refine ⟨fun hrunning => ?_, ?_, ?_⟩
    · rw [running_onConnection] at hrunning
      exact absurd (hidle.symm.trans hrunning) Bool.noConfusion
    · rw [made_onConnection]
      exact h.active
    · rw [made_onConnection]
      intro j rest' hhandling
      obtain ⟨rfl, -⟩ := Prod.mk.inj (Option.some.inj hhandling)
      exact h.handling i _ hh
  | returned => exact ⟨fun hrunning => ⟨(h.phase hrunning).1, rfl⟩, h.active, nofun⟩
  | @loop op lop hne hlop =>
    refine ⟨fun hrunning => ?_,
      fun ch hch i hi => Nat.lt_of_lt_of_le (h.active ch hch i hi) (made_le lop _),
      fun i rest hhandling => Nat.lt_of_lt_of_le (h.handling i rest hhandling) (made_le lop _)⟩
    cases op with
    | poll | handleEvent => cases hlop
    | callback => exact absurd rfl hne
    | newConnection =>
      obtain rfl := Option.some.inj hlop
      exact h.phase hrunning
    | request i r =>
      obtain rfl := Option.some.inj hlop
      rw [LoopOp.exec, running_onConnection] at hrunning
      exact h.phase hrunning
    | swapFunctors => exact hop.1
    | runFunctor w f => exact h.phase hop

end LoopCycle

/-- The step of the loop in a step of the cycle. -/
def loopCall [Inhabited β] (call : CycleCall β) : Option (LoopCall β) :=
  (call.input.loopOp call.before).map fun op => Call.make LoopOp.exec op call.before.eventLoop

namespace LoopCycle

variable [Inhabited β] {s : LoopCycle β} {calls : List (CycleCall β)}

/-- What the cycle lets happen, the loop lets happen. -/
theorem Cycled.scheduled (h : Cycled s) {op : CycleOp β} {lop : LoopOp β}
    (hlop : op.loopOp s = some lop) (hop : InCycle calls (Call.make CycleOp.exec op s))
    (lcalls : List (LoopCall β)) : Scheduled lcalls (Call.make LoopOp.exec lop s.eventLoop) := by
  cases op with
  | poll | handleEvent => cases hlop
  | callback =>
    rcases hh : s.handling with _ | ⟨conn, _ | ⟨next, rest⟩⟩ <;>
      simp only [CycleOp.loopOp, hh] at hlop
    · cases hlop
    · cases hlop
    · obtain rfl := Option.some.inj hlop
      exact ⟨h.idle (.inr hop), h.handling conn _ hh⟩
  | newConnection =>
    obtain rfl := Option.some.inj hlop
    trivial
  | request i r =>
    obtain rfl := Option.some.inj hlop
    exact hop
  | swapFunctors =>
    obtain rfl := Option.some.inj hlop
    exact hop.2
  | runFunctor w f =>
    obtain rfl := Option.some.inj hlop
    exact hop

/-- **A cycle is a run of the loop**: its steps of the loop are a run, with the same effects. -/
theorem refines (h : Run CycleOp.exec InCycle start calls s) :
    Run LoopOp.exec Scheduled EventLoop.start (calls.filterMap loopCall) s.eventLoop ∧
      traceOf (calls.filterMap loopCall) = traceOf calls ∧ Cycled s := by
  suffices hsim : ∃ lcalls t, Run LoopOp.exec Scheduled EventLoop.start lcalls t ∧
      lcalls = calls.filterMap loopCall ∧ t = s.eventLoop ∧ traceOf lcalls = traceOf calls ∧
        Cycled s by
    obtain ⟨lcalls, t, hrun, rfl, rfl, htrace, hcycled⟩ := hsim
    exact ⟨hrun, htrace, hcycled⟩
  refine h.simulate (R := fun calls s lcalls t => lcalls = calls.filterMap loopCall ∧
    t = s.eventLoop ∧ traceOf lcalls = traceOf calls ∧ Cycled s)
    ⟨rfl, rfl, rfl, cycled_start⟩ ?_
  rintro calls s lcalls t op ⟨rfl, rfl, htrace, hcycled⟩ hrun hop hok
  have hfollows := follows (s := s) op
  have hbound : ∀ e ∈ traceOf calls, e.obj < s.eventLoop.made := by
    rw [← htrace]
    exact fun e he => ((stagedInvariant_of_run standing_staged hrun).lives.bound e he).1
  have hcycled' := hcycled.step hbound op hop
  cases hlop : op.loopOp s with
  | none =>
    simp only [hlop] at hfollows
    refine ⟨[], trivial, ?_, hfollows.eventLoop.symm, ?_, hcycled'⟩
    · simp [loopCall, hlop]
    · rw [replay_nil, List.append_nil, htrace, traceOf_append, traceOf_singleton,
        Call.make_outcome, hfollows.trace, List.append_nil]
  | some lop =>
    simp only [hlop] at hfollows
    refine ⟨[lop], .one (hcycled.scheduled hlop hop _) (hfollows.val ▸ hok), ?_,
      hfollows.eventLoop.symm, ?_, hcycled'⟩
    · simp [loopCall, hlop]
    · rw [replay_one, traceOf_append, traceOf_append, htrace, traceOf_singleton,
        traceOf_singleton, Call.make_outcome, Call.make_outcome, hfollows.trace]

end LoopCycle

end Cannet.Net
