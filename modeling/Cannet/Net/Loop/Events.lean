import Cannet.Net.Loop.Cycle

/-!
# Events find the connection they were reported for

`activeChannels_` holds bare addresses, and connections are used again for other sockets. That no
event is handed to a later life of its connection, nor to a closed one, is for two reasons: the
poller reports a connection only under the descriptor it serves (`Registrations`), and until the
last active channel has had its turn nothing closes a connection but its own callbacks, and nothing
puts one back in service (`Timely`).
-/

namespace Cannet.Net

open Foundations EventLoop TcpConnection LoopCycle

variable {β : Type}

/-- An entry of `activeChannels_` is of a live connection, of the descriptor it serves and of the
life it is in. -/
def LoopCycle.Current (s : LoopCycle β) (ch : PolledChannel) : Prop :=
  ∀ i, ch.channel = .connection i →
    (s.eventLoop.conn i).Live ∧ (s.eventLoop.conn i).channel.fd = ch.fd ∧
      s.eventLoop.life i = ch.life

/-- The invariant between a poll and the end of its events. -/
structure LoopCycle.Timely (s : LoopCycle β) : Prop where
  current : ∀ ch ∈ s.activeChannels, s.Current ch
  apart : s.activeChannels.Pairwise fun a b =>
    ∀ i, a.channel = .connection i → b.channel ≠ .connection i
  own : ∀ i rest, s.handling = some (i, rest) →
    ∀ ch ∈ s.activeChannels, ch.channel ≠ .connection i

namespace LoopCycle

variable [Inhabited β] {s : LoopCycle β} {es : List (LifeEffect (Effect β))}

theorem timely_start : Timely (start : LoopCycle β) :=
  ⟨fun _ h => (by cases h), .nil, fun _ _ h => (by cases h)⟩

omit [Inhabited β] in
/-- **A poll** reports live connections, each once. -/
theorem timely_poll {events : List PollEvent} {eventsSize : ℕ}
    (hidle : s.handling.isSome = false) (hinv : LoopInvariant Standing es s.eventLoop)
    (hreg : Registrations es s.eventLoop) (hreported : Reported es s.eventsSize events) :
    Timely { s with
      activeChannels := events.map (polledChannel s.eventLoop), eventsSize := eventsSize } := by
  obtain ⟨honce, -, hregistered⟩ := hreported
  have hserves : ∀ e ∈ events, ∀ i, e.channel = .connection i →
      (s.eventLoop.conn i).Live ∧ (s.eventLoop.conn i).channel.fd = e.fd := by
    intro e he i hi
    have hpolled := hregistered e he
    rw [hi] at hpolled
    obtain ⟨hmade, hlive, hfd⟩ := hreg _ _ hpolled
    exact ⟨hlive, ((hinv.lives.current i hmade).fd).trans hfd⟩
  refine ⟨?_, ?_, ?_⟩
  · intro ch hch i hi
    obtain ⟨e, he, rfl⟩ := List.mem_map.1 hch
    have hi : e.channel = .connection i := hi
    obtain ⟨hlive, hfd⟩ := hserves e he i hi
    exact ⟨hlive, hfd, by rw [polledChannel, hi]⟩
  · rw [List.pairwise_map]
    rw [List.Nodup, List.pairwise_map] at honce
    refine honce.imp_of_mem fun {a b} ha hb hne i hai hbi => hne ?_
    rw [← (hserves a ha i hai).2, ← (hserves b hb i hbi).2]
  · intro i rest hhandling
    have hsome : s.handling = some (i, rest) := hhandling
    rw [hsome] at hidle
    cases hidle

/-- **A callback** of another connection changes nothing for the entries that are left. -/
theorem Timely.callback (h : Timely s) {i : ℕ} {next : ChannelCallback β}
    {rest : List (ChannelCallback β)} (hh : s.handling = some (i, next :: rest)) :
    Timely { s with
      handling := some (i, rest)
      eventLoop := (EventLoop.onConnection i next.call s.eventLoop).state } := by
  obtain ⟨hlife, -, hothers⟩ := EventLoop.onConnection_frame i next.call s.eventLoop
  refine ⟨fun ch hch j hj => ?_, h.apart, fun j rest' hhandling => ?_⟩
  · have hne : j ≠ i := fun heq => h.own i _ hh ch hch (heq ▸ hj)
    have hcurrent := h.current ch hch j hj
    rw [hothers j hne, hlife]
    exact hcurrent
  · obtain ⟨rfl, -⟩ := Prod.mk.inj (Option.some.inj hhandling)
    exact h.own i _ hh

/-- **A request** to a connection leaves it live, and in its life. -/
theorem Timely.request (h : Timely s) (hinv : LoopInvariant Standing es s.eventLoop) {i : ℕ}
    (hi : i < s.eventLoop.made) (r : Request β)
    (hok : (EventLoop.onConnection i r.call s.eventLoop).val = .ok ()) :
    Timely { s with eventLoop := (EventLoop.onConnection i r.call s.eventLoop).state } := by
  obtain ⟨hlife, hself, hothers⟩ := EventLoop.onConnection_frame i r.call s.eventLoop
  have hc := hinv.lives.current i hi
  have hstands := Standing.request r _ _ _ hc hok
  refine ⟨fun ch hch j hj => ?_, h.apart, h.own⟩
  obtain ⟨hlive, hfd, hsame⟩ := h.current ch hch j hj
  by_cases hji : j = i
  · subst hji
    have hopen : (r.call (s.eventLoop.conn j)).state.state ≠ .kDisconnected := by
      refine live_frame.keeps_request keeps_live_shutdown keeps_live_forceClose r [] _ ?_
      rcases hlive with hs | hs <;> simp [hs]
    have hlive' : (r.call (s.eventLoop.conn j)).state.Live := by
      have hsettled := hstands.settled
      unfold Live
      cases hstate : (r.call (s.eventLoop.conn j)).state.state <;> simp_all
    have hsock := (Moves.request r (s.eventLoop.conn j)).sockFd
    rw [hself, hlife]
    refine ⟨hlive', ?_, hsame⟩
    rw [hstands.fd, hsock, ← hc.fd, hfd]
  · rw [hothers j hji, hlife]
    exact ⟨hlive, hfd, hsame⟩

omit [Inhabited β] in
/-- While functors run there is no active channel. -/
theorem Timely.of_idle {eventLoop : EventLoop β} (hactive : s.activeChannels.isEmpty = true) :
    Timely { s with eventLoop := eventLoop } := by
  have hnil : s.activeChannels = [] := List.isEmpty_iff.1 hactive
  refine ⟨?_, ?_, ?_⟩
  · intro ch hch
    rw [hnil] at hch
    cases hch
  · rw [hnil]
    exact .nil
  · intro i rest _ ch hch
    rw [hnil] at hch
    cases hch

theorem Timely.step (h : Timely s) (hcycled : Cycled s) {calls : List (CycleCall β)}
    (hinv : LoopInvariant Standing (traceOf calls) s.eventLoop)
    (hreg : Registrations (traceOf calls) s.eventLoop) (op : CycleOp β)
    (hop : InCycle calls (Call.make CycleOp.exec op s)) (hok : (op.exec s).val = .ok ()) :
    Timely (op.exec s).state := by
  have hp := proceeds op hop
  generalize hs' : (op.exec s).state = s' at hp ⊢
  cases hp with
  | poll events eventsSize => exact timely_poll hop.1.2 hinv hreg hop.2.2
  | entered r w hactive hch =>
    have hapart := h.apart
    rw [hactive, List.pairwise_cons] at hapart
    refine ⟨fun ch' hch' => h.current ch' (hactive ▸ List.mem_cons_of_mem _ hch'), hapart.2, ?_⟩
    intro i rest hhandling ch' hch'
    obtain ⟨rfl, -⟩ := Prod.mk.inj (Option.some.inj hhandling)
    exact hapart.1 ch' hch' _ hch
  | passed r w hactive =>
    have hapart := h.apart
    rw [hactive, List.pairwise_cons] at hapart
    exact ⟨fun ch' hch' => h.current ch' (hactive ▸ List.mem_cons_of_mem _ hch'), hapart.2, nofun⟩
  | callback hh => exact h.callback hh
  | returned => exact ⟨h.current, h.apart, nofun⟩
  | loop op lop hne hlop =>
    cases op with
    | poll | handleEvent => cases hlop
    | callback => exact absurd rfl hne
    | newConnection =>
      obtain rfl := Option.some.inj hlop
      exact ⟨h.current, h.apart, h.own⟩
    | request i r =>
      obtain rfl := Option.some.inj hlop
      exact h.request hinv hop r hok
    | swapFunctors => exact .of_idle hop.1.1
    | runFunctor w f => exact .of_idle (hcycled.phase hop).1

end LoopCycle

section Runs

variable [Inhabited β] {calls : List (CycleCall β)} {s : LoopCycle β}

theorem timely_of_run (h : Run CycleOp.exec InCycle LoopCycle.start calls s)
    (hcareful : Careful (calls.filterMap loopCall)) : Timely s := by
  suffices hall : Run CycleOp.exec InCycle LoopCycle.start calls s ∧
      (Careful (calls.filterMap loopCall) → Timely s) from hall.2 hcareful
  refine h.invariant (I := fun calls s => Run CycleOp.exec InCycle LoopCycle.start calls s ∧
    (Careful (calls.filterMap loopCall) → Timely s)) ⟨.nil, fun _ => timely_start⟩ ?_
  rintro calls s op ⟨hrun, htimely⟩ hop hok
  refine ⟨hrun.snoc op hop hok, fun hcareful => ?_⟩
  rw [List.filterMap_append] at hcareful
  have hbefore : Careful (calls.filterMap loopCall) :=
    ⟨fun call hcall => hcareful.accepts call (List.mem_append_left _ hcall),
      fun call hcall => hcareful.spares call (List.mem_append_left _ hcall)⟩
  obtain ⟨hloop, htrace, hcycled⟩ := refines hrun
  have hinv := stagedInvariant_of_run standing_staged hloop
  have hreg := registrations_of_run hloop hbefore
  rw [htrace] at hinv hreg
  exact (htimely hbefore).step hcycled hinv hreg op hop hok

/-- **Every event finds the connection it was reported for**: at its turn the connection of an
active channel is live, it serves the descriptor of the event, and it is in the life it was in when
the event was reported. -/
theorem events_find_their_connection (h : Run CycleOp.exec InCycle LoopCycle.start calls s)
    (hcareful : Careful (calls.filterMap loopCall)) :
    ∀ ch ∈ s.activeChannels, ∀ i, ch.channel = .connection i →
      i < s.eventLoop.made ∧ (s.eventLoop.conn i).Live ∧
        (s.eventLoop.conn i).channel.fd = ch.fd ∧ s.eventLoop.life i = ch.life :=
  fun ch hch i hi => ⟨(refines h).2.2.active ch hch i hi,
    (timely_of_run h hcareful).current ch hch i hi⟩

end Runs

/-- The first of two reported connections is closed by its peer, and the next socket waits with the
same number, when the second has its turn. -/
theorem events_find_their_connection_of_close :
    ∃ calls s, Run (CycleOp.exec (β := ℕ)) InCycle LoopCycle.start calls s ∧
      s.activeChannels = [⟨.connection 1, 1, 6, 0⟩] ∧
        s.eventLoop.connectionsPool = [some 0] ∧ (s.eventLoop.conn 1).Live := by
  have hrun : Run (CycleOp.exec (β := ℕ)) InCycle LoopCycle.start _ _ :=
    run_replay [.newConnection 5 (some 0) (some 1) none, .newConnection 6 (some 0) (some 1) none,
      .swapFunctors, .runFunctor (.ok 0) (.ok 0), .runFunctor (.ok 0) (.ok 0),
      .poll [⟨5, .connection 0, 1⟩, ⟨6, .connection 1, 1⟩], .handleEvent (.ok []) (.ok 0),
      .callback, .newConnection 5 (some 0) (some 1) none, .callback] (by decide +kernel)
  have hlive := events_find_their_connection hrun ⟨by decide +kernel, by decide +kernel⟩
    ⟨.connection 1, 1, 6, 0⟩ (by decide +kernel) 1 rfl
  exact ⟨_, _, hrun, by decide +kernel, by decide +kernel, hlive.2.1⟩

end Cannet.Net
