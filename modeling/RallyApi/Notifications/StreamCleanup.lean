import RallyApi.Concurrency.Outcomes
import RallyApi.Notifications.Bystanders
import RallyApi.Notifications.Connections

/-!
# What a closed connection leaves behind

`LeavesNothing` fails when the connection ends while `stream()` still awaits something: the response emits
`close` before the listener is set, and the handler that is registered afterwards stays in its set for ever
(`closedWhileSubscribing`). `reachable_leavesNothing` shows that it holds in every run in which the
connection is still open when `stream()` registers its handler and when it sets the listener.

The invariant is `ListenersKept`: a handler in a set belongs to an open response whose listener is set, to a
`stream()` that is about to set it, or to a listener that is about to unsubscribe it.
-/

set_option autoImplicit false
set_option relaxedAutoImplicit false

namespace RallyApi.Notifications

open Concurrency Platform

/-! ### The invariant -/

/-- One of the steps registers the handler of the response. -/
def Registers (number : ℕ) (steps : List ConnectionStep) : Prop :=
  ∃ ticket channel, .of (.registered ticket channel number) ∈ steps

/-- One of the steps unsubscribes the handler of the response. -/
def Unsubscribes (number : ℕ) (steps : List ConnectionStep) : Prop :=
  ∃ ticket channel, .of (.unsubscribed ticket channel number) ∈ steps

/-- The response is open, and its listener is set. -/
def Db.Attached (db : Db) (number : ℕ) : Prop :=
  ∃ stream, db.streams[number]? = some stream ∧ stream.phase = .live ∧ stream.writable = true

/-- The channel is the one of the user who has opened the response. -/
def Db.Owns (db : Db) (channel : Channel) (number : ℕ) : Prop :=
  ∃ stream, db.streams[number]? = some stream ∧ db.userChannel stream.userId = channel

/-- A call has registered the handler of the response, and is yet to set the listener. -/
def Attaching (world : ConnectionWorld) (number : ℕ) : Prop :=
  ∃ caller, Registers number (world.history caller) ∧ .attached number ∉ world.history caller

/-- The listener of the response has been called, and is yet to unsubscribe the handler. -/
def Detaching (world : ConnectionWorld) (number : ℕ) : Prop :=
  ∃ caller, .closed number true ∈ world.history caller ∧ ¬ Unsubscribes number (world.history caller)

/-- The invariant: a response is opened by one call, a handler is in the set of its user's channel and
somebody sees to it, and a heartbeat is one of an open response. -/
structure ListenersKept (world : ConnectionWorld) : Prop where
  openers : ∀ first ∈ world.log, ∀ second ∈ world.log, ∀ number,
    first.2 = .opened number → second.2 = .opened number → first.1 = second.1
  opened : ∀ entry ∈ world.log, ∀ number, entry.2 = .opened number →
    number < world.db.store.streams.length
  owner : ∀ channel number, world.db.store.pubSub.Registered channel number →
    world.db.store.Owns channel number
  listener : ∀ channel number, world.db.store.pubSub.Registered channel number →
    world.db.store.Attached number ∨ Attaching world number ∨ Detaching world number
  heartbeats : ∀ number ∈ world.db.heartbeats, world.db.store.Attached number

/-- What a step may do to the responses: it leaves each to its user, only `stream()` sets a listener, and it
sets the one of the response it has opened. -/
structure Careful (caller : ℕ) (world : ConnectionWorld) (label : ConnectionStep)
    (after : ConnectionDb) : Prop where
  streams : ∀ (number : ℕ) (stream : Stream), world.db.store.streams[number]? = some stream →
    ∃ later, after.store.streams[number]? = some later ∧ later.userId = stream.userId ∧
      (label ≠ .attached number → later.phase = .live → stream.phase = .live)
  keyPrefix : after.store.redisKeyPrefix = world.db.store.redisKeyPrefix
  attaches : ∀ number, label = .attached number → .opened number ∈ world.history caller

/-- The calls of the system keep the invariant in the runs in which a connection is open when its handler
is registered and when its listener is set. -/
def cleanup : Protocol ConnectionDb ConnectionStep where
  permits := StillOpen
  invariant := ListenersKept
  guarantee := Careful

/-- What the steps of a call that has returned have seen to. -/
def CleanedUp (steps : List ConnectionStep) : Prop :=
  ∀ number, (Registers number steps → .attached number ∈ steps) ∧
    (.closed number true ∈ steps → Unsubscribes number steps)

/-! ### What each step keeps -/

section Steps

variable {world : ConnectionWorld} {caller number : ℕ} {label : ConnectionStep} {after : ConnectionDb}
  {channel other : Channel} {steps : List ConnectionStep}

theorem Careful.owns (hcareful : Careful caller world label after)
    (howns : world.db.store.Owns channel number) : after.store.Owns channel number := by
  obtain ⟨stream, hstream, hchannel⟩ := howns
  obtain ⟨later, hlater, huser, _⟩ := hcareful.streams number stream hstream
  refine ⟨later, hlater, ?_⟩
  rw [← hchannel, huser, Db.userChannel, Db.userChannel, Db.channelName, Db.channelName,
    hcareful.keyPrefix]

/-- A response belongs to one user. -/
theorem owns_unique {db : Db} (hfirst : db.Owns channel number) (hsecond : db.Owns other number) :
    channel = other := by
  obtain ⟨stream, hstream, rfl⟩ := hfirst
  obtain ⟨same, hsame, rfl⟩ := hsecond
  obtain rfl := Option.some.inj (hstream.symm.trans hsame)
  rfl

theorem Careful.length (hcareful : Careful caller world label after) :
    world.db.store.streams.length ≤ after.store.streams.length := by
  by_contra hshorter
  rw [Nat.not_le] at hshorter
  have hlast := List.getElem?_eq_getElem hshorter
  obtain ⟨later, hlater, _⟩ := hcareful.streams _ _ hlast
  exact absurd (List.getElem?_eq_some_iff.mp hlater).1 (Nat.lt_irrefl _)

/-- Who is about to set a listener stays so, unless it is set. -/
theorem Attaching.keep (hattaching : Attaching world number) (hlabel : label ≠ .attached number) :
    Attaching (world.after caller label after) number := by
  obtain ⟨other, ⟨ticket, channel, hregistered⟩, hmissing⟩ := hattaching
  refine ⟨other, ⟨ticket, channel, mem_history_after.mpr (.inr hregistered)⟩, fun hattached ↦ ?_⟩
  rcases mem_history_after.mp hattached with ⟨_, rfl⟩ | hold
  · exact hlabel rfl
  · exact hmissing hold

/-- Who is about to unsubscribe a handler stays so, unless it is unsubscribed. -/
theorem Detaching.keep (hdetaching : Detaching world number)
    (hlabel : ∀ ticket channel, label ≠ .of (.unsubscribed ticket channel number)) :
    Detaching (world.after caller label after) number := by
  obtain ⟨other, hclosed, hmissing⟩ := hdetaching
  refine ⟨other, mem_history_after.mpr (.inr hclosed), fun hunsubscribes ↦ ?_⟩
  obtain ⟨ticket, channel, hmem⟩ := hunsubscribes
  rcases mem_history_after.mp hmem with ⟨_, hsame⟩ | hold
  · exact hlabel ticket channel hsame.symm
  · exact hmissing ⟨ticket, channel, hold⟩

/-- Assumes: a careful step; it opens the next response or none; a listener it takes away is called, one it
sets is set on an open response; a handler it adds is one it registers, of the right channel, for a call
that has not set the listener yet; and the heartbeats it leaves are those of open responses. It keeps the
invariant. -/
theorem ListenersKept.step (hkept : ListenersKept world) (hcareful : Careful caller world label after)
    (hopened : ∀ number, label = .opened number → number = world.db.store.streams.length ∧
      number < after.store.streams.length)
    (hattached : ∀ number, world.db.store.Attached number → after.store.Attached number ∨
      label = .closed number true ∧ ¬ Unsubscribes number (world.history caller))
    (hattach : ∀ number, label = .attached number → after.store.Attached number)
    (hregistered : ∀ channel number, after.store.pubSub.Registered channel number →
      world.db.store.pubSub.Registered channel number ∧
          (∀ ticket other, label ≠ .of (.unsubscribed ticket other number)) ∨
        world.db.store.Owns channel number ∧ .attached number ∉ world.history caller ∧
          ∃ ticket other, label = .of (.registered ticket other number))
    (hheartbeats : ∀ number ∈ after.heartbeats, after.store.Attached number) :
    ListenersKept (world.after caller label after) where
  openers first hfirst second hsecond number hone htwo := by
    rcases List.mem_cons.mp hfirst with rfl | hfirst <;>
      rcases List.mem_cons.mp hsecond with rfl | hsecond
    · rfl
    · have hnew := (hopened number hone).1
      have hold := hkept.opened second hsecond number htwo
      omega
    · have hnew := (hopened number htwo).1
      have hold := hkept.opened first hfirst number hone
      omega
    · exact hkept.openers first hfirst second hsecond number hone htwo
  opened entry hentry number hnumber := by
    change number < after.store.streams.length
    rcases List.mem_cons.mp hentry with rfl | hold
    · exact (hopened number hnumber).2
    · exact Nat.lt_of_lt_of_le (hkept.opened entry hold number hnumber) hcareful.length
  owner channel number hmem := by
    rcases hregistered channel number hmem with ⟨hbefore, _⟩ | ⟨howns, _⟩
    · exact hcareful.owns (hkept.owner channel number hbefore)
    · exact hcareful.owns howns
  listener channel number hmem := by
    change after.store.Attached number ∨ _
    rcases hregistered channel number hmem with ⟨hbefore, hlabel⟩ | ⟨_, hmissing, hlabel⟩
    · rcases hkept.listener channel number hbefore with hlive | hattaching | hdetaching
      · rcases hattached number hlive with hstill | ⟨rfl, hmissing⟩
        · exact .inl hstill
        · refine .inr (.inr ⟨caller, mem_history_after.mpr (.inl ⟨rfl, rfl⟩), ?_⟩)
          rintro ⟨ticket, other, hunsubscribed⟩
          rcases mem_history_after.mp hunsubscribed with ⟨_, hsame⟩ | hold
          · cases hsame
          · exact hmissing ⟨ticket, other, hold⟩
      · by_cases hset : label = .attached number
        · exact .inl (hattach number hset)
        · exact .inr (.inl (hattaching.keep hset))
      · exact .inr (.inr (hdetaching.keep hlabel))
    · obtain ⟨ticket, other, rfl⟩ := hlabel
      refine .inr (.inl ⟨caller, ⟨ticket, other, mem_history_after.mpr (.inl ⟨rfl, rfl⟩)⟩, ?_⟩)
      intro hattached
      rcases mem_history_after.mp hattached with ⟨_, hsame⟩ | hold
      · cases hsame
      · exact hmissing hold
  heartbeats := hheartbeats

/-- A step that is about no response adds nothing to see to. -/
theorem CleanedUp.cons (hclean : CleanedUp steps) (hlabel : label.response = none) :
    CleanedUp (label :: steps) := by
  intro number
  refine ⟨?_, fun hclosed ↦ ?_⟩
  · rintro ⟨ticket, channel, hmem⟩
    rcases List.mem_cons.mp hmem with rfl | hold
    · cases hlabel
    · exact .tail _ ((hclean number).1 ⟨ticket, channel, hold⟩)
  · rcases List.mem_cons.mp hclosed with rfl | hold
    · cases hlabel
    · obtain ⟨ticket, channel, hmem⟩ := (hclean number).2 hold
      exact ⟨ticket, channel, .tail _ hmem⟩

/-- A response after a step that only writes to it. -/
theorem exists_of_silent {before later : List Stream} {old : Stream}
    (hstreams : later.map Stream.silent = before.map Stream.silent) (hold : before[number]? = some old) :
    ∃ stream, later[number]? = some stream ∧ stream.userId = old.userId ∧ stream.phase = old.phase ∧
      stream.writable = old.writable := by
  have hsame : (later[number]?).map Stream.silent = some old.silent := by
    rw [← List.getElem?_map, hstreams, List.getElem?_map, hold, Option.map_some]
  obtain ⟨stream, hstream, hsilent⟩ := Option.map_eq_some_iff.mp hsame
  obtain ⟨huser, _, _, hopen, hphase, _⟩ := Stream.mk.inj hsilent
  exact ⟨stream, hstream, huser, hphase, hopen⟩

/-- A step that changes the responses only in what is written to them. -/
theorem careful_of_silent (hkeys : after.store.redisKeyPrefix = world.db.store.redisKeyPrefix)
    (hstreams : after.store.streams.map Stream.silent = world.db.store.streams.map Stream.silent)
    (hlabel : ∀ number, label ≠ .attached number) : Careful caller world label after where
  streams number stream hstream := by
    obtain ⟨later, hlater, huser, hphase, _⟩ := exists_of_silent hstreams hstream
    exact ⟨later, hlater, huser, fun _ hlive ↦ hphase ▸ hlive⟩
  keyPrefix := hkeys
  attaches number hattached := absurd hattached (hlabel number)

theorem attached_of_silent {before later : Db}
    (hstreams : later.streams.map Stream.silent = before.streams.map Stream.silent)
    (hattached : before.Attached number) : later.Attached number := by
  obtain ⟨stream, hstream, hlive, hwritable⟩ := hattached
  obtain ⟨other, hother, _, hphase, hopen⟩ := exists_of_silent hstreams hstream
  exact ⟨other, hother, hphase.trans hlive, hopen.trans hwritable⟩

/-- Assumes: a step that changes the responses only in what is written to them, that opens none and sets no
listener, and that sets no heartbeat; a handler it adds is one it registers, as in `ListenersKept.step`. -/
theorem ListenersKept.silent (hkept : ListenersKept world)
    (hkeys : after.store.redisKeyPrefix = world.db.store.redisKeyPrefix)
    (hstreams : after.store.streams.map Stream.silent = world.db.store.streams.map Stream.silent)
    (hlabel : ∀ number, label ≠ .attached number ∧ label ≠ .opened number)
    (hregistered : ∀ channel number, after.store.pubSub.Registered channel number →
      world.db.store.pubSub.Registered channel number ∧
          (∀ ticket other, label ≠ .of (.unsubscribed ticket other number)) ∨
        world.db.store.Owns channel number ∧ .attached number ∉ world.history caller ∧
          ∃ ticket other, label = .of (.registered ticket other number))
    (hheartbeats : ∀ number ∈ after.heartbeats, number ∈ world.db.heartbeats) :
    cleanup.Keeps caller world label after := by
  have hcareful : Careful caller world label after :=
    careful_of_silent hkeys hstreams fun number ↦ (hlabel number).1
  refine ⟨hcareful, hkept.step hcareful (fun number h ↦ absurd h (hlabel number).2)
    (fun number hattached ↦ .inl (attached_of_silent hstreams hattached))
    (fun number h ↦ absurd h (hlabel number).1) hregistered fun number hnumber ↦ ?_⟩
  exact attached_of_silent hstreams (hkept.heartbeats number (hheartbeats number hnumber))

/-- A step that changes one of the responses. -/
theorem careful_of_modify {index : ℕ} {change : Stream → Stream}
    (hstreams : after.store.streams = world.db.store.streams.modify index change)
    (hkeys : after.store.redisKeyPrefix = world.db.store.redisKeyPrefix)
    (huser : ∀ stream, (change stream).userId = stream.userId)
    (hlive : ∀ stream, label ≠ .attached index → (change stream).phase = .live → stream.phase = .live)
    (hattaches : ∀ number, label = .attached number → .opened number ∈ world.history caller) :
    Careful caller world label after where
  streams number stream hstream := by
    rw [hstreams]
    by_cases hsame : index = number
    · subst hsame
      exact ⟨change stream, by simp [hstream], huser stream, hlive stream⟩
    · exact ⟨stream, by simp [hsame, hstream], rfl, fun _ h ↦ h⟩
  keyPrefix := hkeys
  attaches := hattaches

/-- The other responses stay as they are. -/
theorem attached_of_modify {before later : Db} {index : ℕ} {change : Stream → Stream}
    (hstreams : later.streams = before.streams.modify index change) (hne : index ≠ number)
    (hattached : before.Attached number) : later.Attached number := by
  obtain ⟨stream, hstream, hattached⟩ := hattached
  exact ⟨stream, by simp [hstreams, hne, hstream], hattached⟩

end Steps

/-! ### Steps that are about no response -/

section Aside

variable {world : ConnectionWorld} {caller number : ℕ} {α : Type} {call : NotificationCall α}

/-- A step of the pipeline that leaves the subscriptions and the timers alone. -/
def AsideOn (before : ConnectionDb) (label : ConnectionStep) (after : ConnectionDb) : Prop :=
  ∃ step, label = .of step ∧ Aside before.store step after.store ∧ after.heartbeats = before.heartbeats

theorem response_of_aside {step : NotificationStep} (hstep : step.IsAside) :
    (ConnectionStep.of step).response = none := by
  obtain ⟨hregisters, hunsubscribes⟩ := hstep
  cases step with
  | registered ticket channel handler => cases hregisters
  | unsubscribed ticket channel handler => cases hunsubscribes
  | _ => rfl

theorem AsideOn.response {before after : ConnectionDb} {label : ConnectionStep}
    (haside : AsideOn before label after) : label.response = none := by
  obtain ⟨step, rfl, hstep, _⟩ := haside
  exact response_of_aside hstep.label

/-- Such a step keeps the invariant. -/
theorem ListenersKept.aside {after : ConnectionDb} {label : ConnectionStep} (hkept : ListenersKept world)
    (haside : AsideOn world.db label after) : cleanup.Keeps caller world label after := by
  have hresponse := haside.response
  obtain ⟨step, rfl, hstep, hheartbeats⟩ := haside
  refine hkept.silent hstep.keyPrefix hstep.streams (fun _ ↦ by simp) ?_
    fun number hnumber ↦ hheartbeats ▸ hnumber
  intro channel number hregistered
  rw [PubSub.Registered, hstep.handlers] at hregistered
  refine .inl ⟨hregistered, ?_⟩
  rintro ticket other hlabel
  rw [hlabel] at hresponse
  cases hresponse

/-- A step of the pipeline on the larger store. -/
theorem onStore_atomically {label : Db → NotificationStep} {statement : Db → α × Db} :
    onStore (Call.atomically label statement) = Call.atomically (fun db ↦ .of (label db.store))
      fun db ↦ ((statement db.store).1, { db with store := (statement db.store).2 }) := rfl

theorem only_onStore (hcall : call.Only Aside) : (onStore call).Only AsideOn :=
  hcall.within fun _ step _ haside ↦ ⟨step, rfl, haside, rfl⟩

/-- A call with such steps keeps the protocol, and what is known of its own steps if that does not depend
on those that are about no response. -/
theorem meets_aside {β : Type} {call : ConnectionCall β} {fact : World ConnectionDb ConnectionStep → Prop}
    (hcall : call.Only AsideOn) (hstable : cleanup.Stable number fact)
    (hfact : ∀ world label after, ListenersKept world → fact world → AsideOn world.db label after →
      Careful number world label after → fact (world.after number label after)) :
    cleanup.Meets number call fact fun _ ↦ fact := by
  refine Protocol.meets_of_only hcall hstable fun world label after hkept hholds _ haside ↦ ?_
  have hkeeps : cleanup.Keeps number world label after := ListenersKept.aside hkept haside
  exact ⟨hkeeps, hfact world label after hkept hholds haside hkeeps.guarantee⟩

theorem stable_cleanedUp :
    cleanup.Stable number fun world : ConnectionWorld ↦ CleanedUp (world.history number) :=
  Protocol.stable_history CleanedUp

theorem cleanedUp_nil : CleanedUp [] := by
  simp [CleanedUp, Registers]

/-- A call with such steps has nothing to see to. -/
theorem meets_aside_cleanedUp {β : Type} {call : ConnectionCall β} (hcall : call.Only AsideOn) :
    cleanup.Meets number call (fun world ↦ CleanedUp (world.history number))
      fun _ world ↦ CleanedUp (world.history number) := by
  refine meets_aside hcall stable_cleanedUp fun world label after _ hclean haside _ ↦ ?_
  rw [history_after_self]
  exact hclean.cons haside.response

end Aside

/-! ### Handlers -/

section Handlers

variable {pubSub : PubSub} {channel named : Channel} {handler number : Handler}

/-- A subscribe adds the handler to the set of its channel, if there is one. -/
theorem registered_subscribe (hmem : (pubSub.subscribe channel handler).2.Registered named number) :
    pubSub.Registered named number ∨
      (pubSub.subscribe channel handler).1 = none ∧ named = channel ∧ number = handler := by
  unfold PubSub.subscribe at hmem ⊢
  cases hset : pubSub.handlers channel with
  | none =>
    simp only [hset, PubSub.Registered, handlers_issue, handlers_setHandlers] at hmem ⊢
    split_ifs at hmem
    · cases hmem
    · exact .inl hmem
  | some set =>
    simp only [hset, PubSub.Registered, handlers_setHandlers, true_and] at hmem ⊢
    split_ifs at hmem with hchannel
    · subst hchannel
      rcases mem_addHandler.mp hmem with rfl | hold
      · exact .inr ⟨rfl, rfl⟩
      · exact .inl (hset ▸ hold)
    · exact .inl hmem

/-- So does its end. -/
theorem registered_register (hmem : (pubSub.register channel handler).2.Registered named number) :
    pubSub.Registered named number ∨
      (pubSub.register channel handler).1 = true ∧ named = channel ∧ number = handler := by
  unfold PubSub.register at hmem ⊢
  cases hset : pubSub.handlers channel with
  | none =>
    simp only [hset] at hmem
    exact .inl hmem
  | some set =>
    simp only [hset, PubSub.Registered, handlers_setHandlers, true_and] at hmem ⊢
    split_ifs at hmem with hchannel
    · subst hchannel
      rcases mem_addHandler.mp hmem with rfl | hold
      · exact .inr ⟨rfl, rfl⟩
      · exact .inl (hset ▸ hold)
    · exact .inl hmem

/-- The function `subscribe` returns takes the handler out of the set of its channel. -/
theorem registered_unsubscribe
    (hmem : (pubSub.unsubscribe channel handler).2.Registered named number) :
    pubSub.Registered named number ∧ ¬ (named = channel ∧ number = handler) := by
  unfold PubSub.unsubscribe at hmem
  cases hset : pubSub.handlers channel with
  | none =>
    simp only [hset] at hmem
    refine ⟨hmem, ?_⟩
    rintro ⟨rfl, _⟩
    rw [PubSub.Registered, hset] at hmem
    cases hmem
  | some set =>
    simp only [hset] at hmem
    split_ifs at hmem with hlast
    · simp only [PubSub.Registered, handlers_issue, handlers_setHandlers] at hmem
      split_ifs at hmem with hchannel
      · cases hmem
      · exact ⟨hmem, fun hsame ↦ hchannel hsame.1⟩
    · simp only [PubSub.Registered, handlers_setHandlers] at hmem
      split_ifs at hmem with hchannel
      · subst hchannel
        obtain ⟨hold, hne⟩ := mem_deleteHandler.mp hmem
        exact ⟨by rw [PubSub.Registered, hset]; exact hold, fun hsame ↦ hne hsame.2⟩
      · exact ⟨hmem, fun hsame ↦ hchannel hsame.1⟩

end Handlers

/-! ### `stream` -/

section Endpoint

variable {world : ConnectionWorld} {number index : ℕ} {userId tenantId : Uuid}
  {lastEventId : Option Uuid} {channel : Channel}

/-- The call has opened the response for the user, and nobody has set its listener. -/
structure Connecting (number index : ℕ) (userId : Uuid) (world : ConnectionWorld) : Prop where
  opened : .opened index ∈ world.history number
  stream : ∃ stream, world.db.store.streams[index]? = some stream ∧ stream.userId = userId ∧
    stream.phase ≠ .live

/-- The steps of a `stream()` that has not registered its handler. -/
def Unregistered (index : ℕ) (steps : List ConnectionStep) : Prop :=
  ∀ step ∈ steps, step.response = none ∨ step = .opened index

/-- The steps of a `stream()` that may have registered its handler. -/
def OnlyFor (index : ℕ) (steps : List ConnectionStep) : Prop :=
  ∀ step ∈ steps, step.response = none ∨ step = .opened index ∨
    ∃ ticket channel, step = .of (.registered ticket channel index)

/-- A step keeps it, unless it sets the listener. -/
theorem Connecting.step {label : ConnectionStep} {after : ConnectionDb} {caller : ℕ}
    (hconnecting : Connecting number index userId world) (hcareful : Careful caller world label after)
    (hlabel : label ≠ .attached index) :
    Connecting number index userId (world.after caller label after) := by
  obtain ⟨stream, hstream, huser, hphase⟩ := hconnecting.stream
  obtain ⟨later, hlater, hsame, hlive⟩ := hcareful.streams index stream hstream
  exact ⟨mem_history_after.mpr (.inr hconnecting.opened), later, hlater, hsame.trans huser,
    fun h ↦ hphase (hlive hlabel h)⟩

/-- Only the call that has opened the response sets its listener. -/
theorem stable_connecting : cleanup.Stable number (Connecting number index userId) := by
  intro other hne world label after hkept hconnecting hcareful
  refine hconnecting.step hcareful ?_
  rintro rfl
  have hopener := mem_history.mp (Careful.attaches hcareful index rfl)
  have hown := mem_history.mp hconnecting.opened
  exact hne (ListenersKept.openers hkept _ hopener _ hown index rfl rfl)

theorem Unregistered.cleanedUp {steps : List ConnectionStep} (hsteps : Unregistered index steps) :
    CleanedUp steps := by
  intro number
  refine ⟨?_, fun hmem ↦ ?_⟩
  · rintro ⟨ticket, channel, hmem⟩
    rcases hsteps _ hmem with hresponse | hopened
    · cases hresponse
    · cases hopened
  · rcases hsteps _ hmem with hresponse | hopened
    · cases hresponse
    · cases hopened

theorem OnlyFor.cleanedUp {steps : List ConnectionStep} (hsteps : OnlyFor index steps) :
    CleanedUp (.attached index :: steps) := by
  intro number
  refine ⟨?_, fun hmem ↦ ?_⟩
  · rintro ⟨ticket, channel, hmem⟩
    rcases List.mem_cons.mp hmem with hsame | hold
    · cases hsame
    · rcases hsteps _ hold with hresponse | hopened | ⟨_, _, hregistered⟩
      · cases hresponse
      · cases hopened
      · cases hregistered
        exact .head _
  · rcases List.mem_cons.mp hmem with hsame | hold
    · cases hsame
    · rcases hsteps _ hold with hresponse | hopened | ⟨_, _, hregistered⟩
      · cases hresponse
      · cases hopened
      · cases hregistered

/-- What a `stream()` knows before it has registered its handler. -/
def Before (number index : ℕ) (userId : Uuid) (world : ConnectionWorld) : Prop :=
  Connecting number index userId world ∧ Unregistered index (world.history number)

theorem stable_before : cleanup.Stable number (Before number index userId) :=
  stable_connecting.and (Protocol.stable_history (Unregistered index))

/-- A step that is about no response leaves that as it is. -/
theorem Before.step {label : ConnectionStep} {after : ConnectionDb}
    (hbefore : Before number index userId world) (hcareful : Careful number world label after)
    (hlabel : label.response = none) :
    Before number index userId (world.after number label after) := by
  refine ⟨hbefore.1.step hcareful ?_, ?_⟩
  · rintro rfl
    cases hlabel
  · rw [history_after_self]
    intro step hstep
    rcases List.mem_cons.mp hstep with rfl | hold
    · exact .inl hlabel
    · exact hbefore.2 step hold

/-- The response is handed to the controller. -/
theorem meets_hijack : cleanup.Meets number (hijack userId tenantId lastEventId).outcome
    (Fresh number) fun result world ↦ ∃ index, result = .ok index ∧
      Before number index userId world := by
  unfold hijack
  refine Protocol.meets_outcome_atomically (Protocol.stable_history (· = [])) ?_
  intro world hkept hfresh _
  have hhistory : world.history number = [] := hfresh
  have hcareful : Careful number world (.opened world.db.store.streams.length) { world.db with
      store.streams := world.db.store.streams ++ [{ userId, tenantId, lastEventId }] } := by
    refine ⟨fun other stream hstream ↦ ⟨stream, ?_, rfl, fun _ h ↦ h⟩, rfl, by simp⟩
    rw [List.getElem?_append_left (List.getElem?_eq_some_iff.mp hstream).1]
    exact hstream
  have hattached : ∀ other, world.db.store.Attached other →
      Db.Attached { world.db.store with
        streams := world.db.store.streams ++ [{ userId, tenantId, lastEventId }] } other := by
    rintro other ⟨stream, hstream, hlive⟩
    refine ⟨stream, ?_, hlive⟩
    rw [List.getElem?_append_left (List.getElem?_eq_some_iff.mp hstream).1]
    exact hstream
  refine ⟨⟨hcareful, hkept.step hcareful ?_ (fun other h ↦ .inl (hattached other h)) (by simp) ?_
    ?_⟩, ?_⟩
  · rintro other ⟨⟩
    exact ⟨rfl, by simp⟩
  · exact fun _ _ hregistered ↦ .inl ⟨hregistered, by simp⟩
  · exact fun other hother ↦ hattached other (hkept.heartbeats other hother)
  · refine ⟨_, rfl, ⟨by simp, _, List.getElem?_concat_length, rfl, by simp⟩, ?_⟩
    simp [Unregistered, hhistory]

/-- What a replay makes of the store: it changes one response, which does not become live. -/
structure Replays (index : ℕ) (before : Db) (label : NotificationStep) (after : Db) : Prop where
  label : label.IsAside
  pubSub : after.pubSub = before.pubSub
  keyPrefix : after.redisKeyPrefix = before.redisKeyPrefix
  streams : ∃ change : Stream → Stream,
    (∀ stream, (change stream).userId = stream.userId ∧
      ((change stream).phase = .live → stream.phase = .live)) ∧
      after.streams = before.streams.modify index change

theorem only_replayMissed : (replayMissed index lastEventId).Only (Replays index) := by
  cases lastEventId with
  | none =>
    refine (Call.only_atomically _ _).mpr fun db ↦ ⟨isAside_other, rfl, rfl, _, ?_, rfl⟩
    exact fun stream ↦ ⟨rfl, by simp⟩
  | some afterId =>
    intro db
    refine ⟨?_, trivial⟩
    dsimp only
    split_ifs
    · refine ⟨isAside_other, rfl, rfl, _, fun stream ↦ ⟨?_, ?_⟩, rfl⟩
      · exact (continues_write : stream.Continues _).userId
      · simp [Stream.replay]
    · exact ⟨isAside_other, rfl, rfl, id, fun _ ↦ ⟨rfl, id⟩, (List.modify_id _ _).symm⟩

/-- The replay. -/
theorem meets_replayMissed_cleanup :
    cleanup.Meets number (onStore (replayMissed index lastEventId)).outcome
      (Before number index userId) fun _ ↦ Before number index userId := by
  have hwithin : (onStore (replayMissed index lastEventId)).outcome.Only fun before label after ↦
      ∃ step, label = .of step ∧ Replays index before.store step after.store ∧
        after.heartbeats = before.heartbeats :=
    (only_replayMissed.within fun _ step _ hreplays ↦ ⟨step, rfl, hreplays, rfl⟩).outcome
  refine Protocol.meets_of_only hwithin stable_before fun world label after hkept hbefore _ hstep ↦ ?_
  obtain ⟨step, rfl, hreplays, hheartbeats⟩ := hstep
  obtain ⟨stream, hstream, huser, hphase⟩ := hbefore.1.stream
  obtain ⟨change, hchange, hstreams⟩ := hreplays.streams
  have hresponse := response_of_aside hreplays.label
  have hcareful : Careful number world (.of step) after :=
    careful_of_modify hstreams hreplays.keyPrefix (fun old ↦ (hchange old).1)
      (fun old _ ↦ (hchange old).2) (by simp)
  have hattached : ∀ other, world.db.store.Attached other → after.store.Attached other := by
    intro other hother
    refine attached_of_modify hstreams ?_ hother
    rintro rfl
    obtain ⟨old, hold, hlive, _⟩ := hother
    obtain rfl := Option.some.inj (hstream.symm.trans hold)
    exact hphase hlive
  refine ⟨⟨hcareful, ListenersKept.step hkept hcareful (by simp)
    (fun other h ↦ .inl (hattached other h)) (by simp) (fun channel other hregistered ↦ .inl ⟨?_, ?_⟩)
    fun other hother ↦ ?_⟩, hbefore.step hcareful hresponse⟩
  · rw [← hreplays.pubSub]
    exact hregistered
  · rintro ticket named hlabel
    rw [hlabel] at hresponse
    cases hresponse
  · exact hattached other (ListenersKept.heartbeats hkept other (hheartbeats ▸ hother))

/-- What a `stream()` knows once it has registered its handler. -/
def After (number index : ℕ) (userId : Uuid) (world : ConnectionWorld) : Prop :=
  Connecting number index userId world ∧ OnlyFor index (world.history number)

theorem stable_after : cleanup.Stable number (After number index userId) :=
  stable_connecting.and (Protocol.stable_history (OnlyFor index))

/-- Registering the handler. -/
theorem Before.registered {ticket : Option ℕ} {after : ConnectionDb}
    (hbefore : Before number index userId world)
    (hcareful : Careful number world (.of (.registered ticket channel index)) after) :
    After number index userId
      (world.after number (.of (.registered ticket channel index)) after) := by
  refine ⟨hbefore.1.step hcareful (by simp), ?_⟩
  rw [history_after_self]
  intro step hstep
  rcases List.mem_cons.mp hstep with rfl | hold
  · exact .inr (.inr ⟨ticket, channel, rfl⟩)
  · exact (hbefore.2 step hold).imp_right .inl

/-- A step of `subscribe` keeps the invariant. Assumes: a handler it adds is the one it registers. -/
theorem Before.keeps {label : NotificationStep} {pubSub : PubSub} (hkept : ListenersKept world)
    (hbefore : Before number index userId world) (howns : world.db.store.Owns channel index)
    (hlabel : label.unsubscribes = none)
    (hregistered : ∀ named handler, pubSub.Registered named handler →
      world.db.store.pubSub.Registered named handler ∨
        label.registers.isSome ∧ named = channel ∧ handler = index)
    (hregisters : ∀ target ∈ label.registers, target.2 = index) :
    cleanup.Keeps number world (.of label) { world.db with store.pubSub := pubSub } := by
  refine hkept.silent rfl rfl (by simp) (fun named handler hmem ↦ ?_) fun _ h ↦ h
  have hnew := hregistered named handler hmem
  cases label with
  | registered ticket other target =>
    obtain rfl : target = index := hregisters _ rfl
    rcases hnew with hold | ⟨_, rfl, rfl⟩
    · exact .inl ⟨hold, by simp⟩
    · refine .inr ⟨howns, fun hattached ↦ ?_, ticket, other, rfl⟩
      rcases hbefore.2 _ hattached with hresponse | hopened
      · cases hresponse
      · cases hopened
  | unsubscribed ticket other target => cases hlabel
  | _ => exact .inl ⟨hnew.resolve_right (by simp [NotificationStep.registers]), by simp⟩

theorem stable_subscribing : cleanup.Stable number fun world ↦
    Before number index userId world ∧ world.db.store.Owns channel index := by
  intro other hne world label after hkept hholds hcareful
  exact ⟨stable_before other hne world label after hkept hholds.1 hcareful,
    Careful.owns hcareful hholds.2⟩

/-- `subscribe` up to its await. -/
theorem meets_startSubscribe_cleanup :
    cleanup.Meets number (onStore (startSubscribe channel index)).outcome
      (fun world ↦ Before number index userId world ∧ world.db.store.Owns channel index)
      fun result world ↦ result = .ok none ∧ After number index userId world ∨
        (∃ ticket, result = .ok (some ticket)) ∧ Before number index userId world ∧
          world.db.store.Owns channel index := by
  unfold startSubscribe
  rw [onStore_atomically]
  refine Protocol.meets_outcome_atomically stable_subscribing ?_
  intro world hkept hholds _
  obtain ⟨hbefore, howns⟩ := hholds
  dsimp only
  cases hticket : (world.db.store.pubSub.subscribe channel index).1 with
  | none =>
    have hkeeps : cleanup.Keeps number world (.of (.registered none channel index)) { world.db with
        store.pubSub := (world.db.store.pubSub.subscribe channel index).2 } :=
      hbefore.keeps hkept howns rfl
        (fun named handler hmem ↦ (registered_subscribe hmem).imp_right fun h ↦ ⟨rfl, h.2⟩)
        (by simp [NotificationStep.registers])
    exact ⟨hkeeps, .inl ⟨rfl, hbefore.registered hkeeps.guarantee⟩⟩
  | some ticket =>
    have hkeeps : cleanup.Keeps number world (.of (.subscribing ticket channel)) { world.db with
        store.pubSub := (world.db.store.pubSub.subscribe channel index).2 } := by
      refine hbefore.keeps hkept howns rfl (fun named handler hmem ↦ ?_)
        (by simp [NotificationStep.registers])
      refine .inl ((registered_subscribe hmem).resolve_right fun h ↦ ?_)
      cases hticket.symm.trans h.1
    exact ⟨hkeeps, .inr ⟨⟨ticket, rfl⟩, hbefore.step hkeeps.guarantee rfl,
      Careful.owns hkeeps.guarantee howns⟩⟩

/-- `subscribe` from its await on, up to the dereference. -/
theorem meets_resumeSubscribe_cleanup {ticket : ℕ} :
    cleanup.Meets number (onStore (resumeSubscribe ticket channel index)).outcome
      (fun world ↦ Before number index userId world ∧ world.db.store.Owns channel index)
      fun result world ↦ result = .ok true ∧ After number index userId world ∨
        result = .ok false ∧ Before number index userId world := by
  unfold resumeSubscribe
  rw [onStore_atomically]
  refine Protocol.meets_outcome_atomically stable_subscribing ?_
  intro world hkept hholds _
  obtain ⟨hbefore, howns⟩ := hholds
  dsimp only
  cases hfound : (world.db.store.pubSub.register channel index).1 with
  | true =>
    have hkeeps : cleanup.Keeps number world (.of (.registered (some ticket) channel index)) {
        world.db with store.pubSub := (world.db.store.pubSub.register channel index).2 } :=
      hbefore.keeps hkept howns rfl
        (fun named handler hmem ↦ (registered_register hmem).imp_right fun h ↦ ⟨rfl, h.2⟩)
        (by simp [NotificationStep.registers])
    exact ⟨hkeeps, .inl ⟨rfl, hbefore.registered hkeeps.guarantee⟩⟩
  | false =>
    have hkeeps : cleanup.Keeps number world (.of (.resumed ticket)) { world.db with
        store.pubSub := (world.db.store.pubSub.register channel index).2 } := by
      refine hbefore.keeps hkept howns rfl (fun named handler hmem ↦ ?_)
        (by simp [NotificationStep.registers])
      refine .inl ((registered_register hmem).resolve_right fun h ↦ ?_)
      cases hfound.symm.trans h.1
    exact ⟨hkeeps, .inr ⟨rfl, hbefore.step hkeeps.guarantee rfl⟩⟩

/-- `subscribe`: the handler is registered, or the call has crashed. -/
theorem meets_subscribe_cleanup :
    cleanup.Meets number (onStore (Notifications.subscribe channel index)).outcome
      (fun world ↦ Before number index userId world ∧ world.db.store.Owns channel index)
      fun result world ↦ result = .ok () ∧ After number index userId world ∨
        result = .error .typeError ∧ Before number index userId world := by
  unfold Notifications.subscribe onStore
  rw [Call.within_bind]
  refine Protocol.Meets.bindOutcome meets_startSubscribe_cleanup (fun ticket ↦ ?_) fun _ _ _ h ↦ ?_
  · cases ticket with
    | none =>
      refine Protocol.meets_pure fun world _ hholds ↦ ?_
      rcases hholds with ⟨_, hafter⟩ | ⟨⟨_, hsome⟩, _⟩
      · exact .inl ⟨rfl, hafter⟩
      · cases hsome
    | some ticket =>
      dsimp only
      rw [Call.within_bind]
      refine Protocol.Meets.strengthen ?_ fun world _ hholds ↦ (hholds.resolve_left (by simp)).2
      refine Protocol.Meets.bindOutcome meets_resumeSubscribe_cleanup (fun found ↦ ?_)
        fun _ _ _ h ↦ ?_
      · cases found with
        | true =>
          refine Protocol.meets_pure fun world _ hholds ↦ .inl ⟨rfl, ?_⟩
          exact (hholds.resolve_right (by simp)).2
        | false =>
          refine Protocol.meets_pure fun world _ hholds ↦ .inr ⟨rfl, ?_⟩
          exact (hholds.resolve_left (by simp)).2
      · simp at h
  · simp at h

/-- `userChannel`. -/
theorem meets_userChannel :
    cleanup.Meets number (onStore (Call.query .other fun db ↦ db.userChannel userId)).outcome
      (Before number index userId) fun result world ↦ ∃ channel, result = .ok channel ∧
        Before number index userId world ∧ world.db.store.Owns channel index := by
  change cleanup.Meets number (onStore (Call.atomically (fun _ ↦ .other) fun db ↦
    (db.userChannel userId, db))).outcome _ _
  rw [onStore_atomically]
  refine Protocol.meets_outcome_atomically stable_before fun world hkept hbefore _ ↦ ?_
  have hkeeps : cleanup.Keeps number world (.of .other) world.db :=
    ListenersKept.aside hkept ⟨.other, rfl, aside_refl isAside_other, rfl⟩
  obtain ⟨stream, hstream, huser, _⟩ := hbefore.1.stream
  refine ⟨hkeeps, _, rfl, hbefore.step hkeeps.guarantee rfl, stream, hstream, ?_⟩
  rw [huser]
  rfl

/-- The timer and the listener are set. -/
theorem meets_attach : cleanup.Meets number (attach index).outcome (After number index userId)
    fun _ world ↦ CleanedUp (world.history number) := by
  unfold attach
  refine Protocol.meets_outcome_atomically stable_after fun world hkept hafter hpermits ↦ ?_
  obtain ⟨stream, hstream, huser, hphase⟩ := hafter.1.stream
  have hopen : stream.writable = true := by
    change world.db.store.isOpen index = true at hpermits
    rwa [Db.isOpen, hstream, Option.any_some] at hpermits
  have hlive : ({ world.db.store with streams := world.db.store.streams.modify index fun stream ↦
      { stream with phase := .live } } : Db).Attached index :=
    ⟨{ stream with phase := .live }, by simp [hstream], rfl, hopen⟩
  have hcareful : Careful number world (.attached index) { world.db with
      store := world.db.store.updateStream index fun stream ↦ { stream with phase := .live }
      heartbeats := index :: world.db.heartbeats } := by
    refine careful_of_modify rfl rfl (fun _ ↦ rfl) (fun _ h ↦ absurd rfl h) fun other hother ↦ ?_
    obtain rfl := ConnectionStep.attached.inj hother
    exact hafter.1.opened
  have hattached : ∀ other, world.db.store.Attached other →
      (world.db.store.updateStream index fun stream ↦ { stream with phase := .live }).Attached
        other := by
    intro other hother
    by_cases hsame : index = other
    · exact hsame ▸ hlive
    · exact attached_of_modify rfl hsame hother
  refine ⟨⟨hcareful, hkept.step hcareful (by simp) (fun other h ↦ .inl (hattached other h)) ?_
    (fun _ _ hregistered ↦ .inl ⟨hregistered, by simp⟩) fun other hother ↦ ?_⟩, ?_⟩
  · rintro other ⟨⟩
    exact hlive
  · rcases List.mem_cons.mp hother with rfl | hold
    · exact hlive
    · exact hattached other (hkept.heartbeats other hold)
  · rw [history_after_self]
    exact hafter.2.cleanedUp

/-- `stream`. -/
theorem meets_streamEvents : cleanup.Meets number (streamEvents userId tenantId lastEventId).outcome
    (Fresh number) fun _ world ↦ CleanedUp (world.history number) := by
  refine Protocol.Meets.bindOutcome meets_hijack (fun index ↦ ?_) fun _ _ _ h ↦ ?_
  · have hbefore : ∀ {α : Type} {call : NotificationCall α}, call.Only Aside →
        cleanup.Meets number (onStore call).outcome (Before number index userId) fun _ ↦
          Before number index userId := fun hcall ↦
      meets_aside (only_onStore hcall).outcome stable_before fun _ _ _ _ hbefore haside hcareful ↦
        hbefore.step hcareful haside.response
    have hfail : ∀ (failure : Failure) (world : ConnectionWorld), Before number index userId world →
        CleanedUp (world.history number) := fun _ _ h ↦ h.2.cleanedUp
    refine Protocol.Meets.strengthen ?_ fun world _ h ↦
      (show Before number index userId world from ?_)
    · refine Protocol.Meets.bindOutcome (hbefore only_writeConnected) (fun _ ↦ ?_)
        fun failure world _ h ↦ hfail failure world h
      refine Protocol.Meets.bindOutcome meets_replayMissed_cleanup (fun _ ↦ ?_)
        fun failure world _ h ↦ hfail failure world h
      refine Protocol.Meets.bindOutcome meets_userChannel (fun channel ↦ ?_) fun _ _ _ h ↦ ?_
      · refine Protocol.Meets.bindOutcome (meets_subscribe_cleanup.strengthen fun world _ h ↦ ?_)
          (fun _ ↦ ?_) fun failure world _ h ↦ hfail failure world (h.resolve_left (by simp)).2
        · obtain ⟨_, hsame, hholds⟩ := h
          obtain rfl := Except.ok.inj hsame
          exact hholds
        · exact meets_attach.strengthen fun world _ h ↦ (h.resolve_right (by simp)).2
      · obtain ⟨_, hsame, _⟩ := h
        cases hsame
    · obtain ⟨_, hsame, hholds⟩ := h
      obtain rfl := Except.ok.inj hsame
      exact hholds
  · obtain ⟨_, hsame, _⟩ := h
    cases hsame

end Endpoint

/-! ### The other requests -/

section Requests

variable {world : ConnectionWorld} {number index : ℕ} {channel : Channel}

/-- The listener has been called, and is to unsubscribe the handler from the channel of its user. -/
def Closing (number index : ℕ) (channel : Channel) (world : ConnectionWorld) : Prop :=
  world.history number = [.closed index true] ∧ world.db.store.Owns channel index

theorem stable_closing : cleanup.Stable number (Closing number index channel) := by
  intro other hne world label after _ hclosing hcareful
  refine ⟨?_, Careful.owns hcareful hclosing.2⟩
  rw [history_after_of_ne _ _ _ hne]
  exact hclosing.1

/-- The function `subscribe` returns, up to its await. -/
theorem meets_startUnsubscribe_cleanup :
    cleanup.Meets number (onStore (startUnsubscribe channel index)).outcome
      (Closing number index channel) fun _ world ↦ CleanedUp (world.history number) := by
  unfold startUnsubscribe
  rw [onStore_atomically]
  refine Protocol.meets_outcome_atomically stable_closing fun world hkept hclosing _ ↦ ?_
  obtain ⟨hhistory, howns⟩ := hclosing
  dsimp only
  refine ⟨hkept.silent rfl rfl (by simp) (fun named handler hmem ↦ ?_) fun _ h ↦ h, ?_⟩
  · obtain ⟨hold, hother⟩ := registered_unsubscribe hmem
    refine .inl ⟨hold, ?_⟩
    rintro ticket other hlabel
    obtain ⟨_, _, rfl⟩ := NotificationStep.unsubscribed.inj (ConnectionStep.of.inj hlabel)
    exact hother ⟨owns_unique (hkept.owner named index hold) howns, rfl⟩
  · rw [history_after_self, hhistory]
    intro other
    refine ⟨?_, fun hclosed ↦ ?_⟩
    · rintro ⟨ticket, named, hmem⟩
      simp at hmem
    · obtain ⟨rfl, _⟩ := ConnectionStep.closed.inj (by simpa using hclosed : ConnectionStep.closed other
        true = .closed index true)
      exact ⟨_, channel, .head _⟩

/-- The listener is set exactly if the response is open and live. -/
theorem listener_eq_some {db : Db} (hlistener : db.listener index = some channel) :
    db.Attached index ∧ db.Owns channel index := by
  obtain ⟨stream, hstream, hchannel⟩ := Option.map_eq_some_iff.mp hlistener
  obtain ⟨hstream, hattached⟩ := Option.filter_eq_some_iff.mp hstream
  obtain ⟨hwritable, hlive⟩ := of_decide_eq_true hattached
  exact ⟨⟨stream, hstream, hlive, hwritable⟩, stream, hstream, hchannel⟩

theorem listener_ne_none {db : Db} (hattached : db.Attached index) : db.listener index ≠ none := by
  obtain ⟨stream, hstream, hlive, hwritable⟩ := hattached
  simp [Db.listener, hstream, hlive, hwritable]

theorem isOpen_of_attached {db : Db} (hattached : db.Attached index) : db.isOpen index = true := by
  obtain ⟨stream, hstream, _, hwritable⟩ := hattached
  simp [Db.isOpen, hstream, hwritable]

/-- The response is not writable anymore: a careful step, as far as it sets no listener. -/
theorem careful_hangUp {label : ConnectionStep} {after : ConnectionDb}
    (hstore : after.store = (world.db.hangUp index).store) (hlabel : ∀ other, label ≠ .attached other) :
    Careful number world label after :=
  careful_of_modify (congrArg Db.streams hstore) (by rw [hstore]; rfl) (fun _ ↦ rfl)
    (fun _ _ h ↦ h) fun other hother ↦ absurd hother (hlabel other)

/-- The response emits `close`, up to the call of the function `subscribe` has returned. -/
theorem keeps_close (hkept : ListenersKept world) (hfresh : world.history number = []) :
    cleanup.Keeps number world (.closed index true) ((world.db.hangUp index).clearHeartbeat index) := by
  have hcareful : Careful number world (.closed index true)
      ((world.db.hangUp index).clearHeartbeat index) := careful_hangUp rfl (by simp)
  refine ⟨hcareful, hkept.step hcareful (by simp) (fun other hother ↦ ?_) (by simp)
    (fun _ _ hregistered ↦ .inl ⟨hregistered, by simp⟩) fun other hother ↦ ?_⟩
  · by_cases hsame : index = other
    · subst hsame
      refine .inr ⟨rfl, ?_⟩
      simp [Unsubscribes, hfresh]
    · exact .inl (attached_of_modify rfl hsame hother)
  · obtain ⟨hmem, hne⟩ := List.mem_filter.mp hother
    exact attached_of_modify rfl (Ne.symm (of_decide_eq_true hne)) (hkept.heartbeats other hmem)

/-- The response emits `close` while no listener is set. -/
theorem keeps_hangUp {label : ConnectionStep} (hkept : ListenersKept world)
    (hlistener : world.db.store.listener index = none)
    (hlabel : ∀ other, label ≠ .attached other ∧ label ≠ .opened other)
    (hunsubscribed : ∀ ticket named other, label ≠ .of (.unsubscribed ticket named other)) :
    cleanup.Keeps number world label (world.db.hangUp index) := by
  have hcareful : Careful number world label (world.db.hangUp index) :=
    careful_hangUp rfl fun other ↦ (hlabel other).1
  have hattached : ∀ other, world.db.store.Attached other →
      (world.db.hangUp index).store.Attached other := by
    intro other hother
    refine attached_of_modify rfl ?_ hother
    rintro rfl
    exact listener_ne_none hother hlistener
  exact ⟨hcareful, hkept.step hcareful (fun other h ↦ absurd h (hlabel other).2)
    (fun other h ↦ .inl (hattached other h)) (fun other h ↦ absurd h (hlabel other).1)
    (fun _ _ hregistered ↦ .inl ⟨hregistered, fun ticket named ↦ hunsubscribed ticket named _⟩)
    fun other hother ↦ hattached other (hkept.heartbeats other hother)⟩

/-- The first step of the end of a connection: there is no listener to run, or it is about to unsubscribe.
-/
theorem meets_close : cleanup.Meets number (Call.atomically
    (fun db : ConnectionDb ↦ if db.store.isOpen index then
      .closed index (db.store.listener index).isSome else .of .other)
    (fun db ↦ (db.store.listener index,
      if (db.store.listener index).isSome then (db.hangUp index).clearHeartbeat index
      else db.hangUp index)) : ConnectionCall (Option Channel)).outcome (Fresh number)
    fun result world ↦ result = .ok none ∧ CleanedUp (world.history number) ∨
      ∃ channel, result = .ok (some channel) ∧ Closing number index channel world := by
  refine Protocol.meets_outcome_atomically (Protocol.stable_history (· = [])) ?_
  intro world hkept hfresh _
  have hhistory : world.history number = [] := hfresh
  dsimp only
  cases hlistener : world.db.store.listener index with
  | none =>
    simp only [Option.isSome_none, Bool.false_eq_true, if_false]
    have hnone : ∀ label : ConnectionStep, (label = .closed index false ∨ label = .of .other) →
        cleanup.Keeps number world label (world.db.hangUp index) ∧
          CleanedUp ((world.after number label (world.db.hangUp index)).history number) := by
      rintro label (rfl | rfl)
      · refine ⟨keeps_hangUp hkept hlistener (by simp) (by simp), ?_⟩
        simp [CleanedUp, Registers, hhistory]
      · refine ⟨keeps_hangUp hkept hlistener (by simp) (by simp), ?_⟩
        simp [CleanedUp, Registers, hhistory]
    have hlabel := hnone (if world.db.store.isOpen index = true then .closed index false
      else .of .other) (by split_ifs <;> simp)
    exact ⟨hlabel.1, .inl ⟨trivial, hlabel.2⟩⟩
  | some channel =>
    obtain ⟨hattached, howns⟩ := listener_eq_some hlistener
    simp only [isOpen_of_attached hattached, Option.isSome_some, if_true]
    have hkeeps : cleanup.Keeps number world (.closed index true)
        ((world.db.hangUp index).clearHeartbeat index) := keeps_close hkept hhistory
    exact ⟨hkeeps, .inr ⟨channel, rfl, by simp [hhistory], Careful.owns hkeeps.guarantee howns⟩⟩

/-- The function that `subscribe` has returned. -/
theorem meets_unsubscribe_cleanup :
    cleanup.Meets number (onStore (unsubscribe channel index)).outcome (Closing number index channel)
      fun _ world ↦ CleanedUp (world.history number) := by
  unfold unsubscribe onStore
  rw [Call.within_bind]
  refine Protocol.Meets.bindOutcome meets_startUnsubscribe_cleanup (fun ticket ↦ ?_) fun _ _ _ h ↦ h
  cases ticket with
  | none => exact Protocol.meets_pure fun world _ h ↦ h
  | some ticket =>
    refine meets_aside_cleanedUp (Call.Only.outcome (only_onStore ?_))
    exact (Call.only_query _ _).mpr fun _ ↦ aside_refl ⟨rfl, rfl⟩

/-- The end of a connection. -/
theorem meets_emitClose : cleanup.Meets number (emitClose index).outcome (Fresh number)
    fun _ world ↦ CleanedUp (world.history number) := by
  refine Protocol.Meets.bindOutcome meets_close (fun channel ↦ ?_) fun _ _ _ h ↦ ?_
  · cases channel with
    | none => exact Protocol.meets_pure fun world _ h ↦ (h.resolve_right (by simp)).2
    | some channel =>
      refine meets_unsubscribe_cleanup.strengthen fun world _ h ↦ ?_
      obtain ⟨_, hsame, hclosing⟩ := h.resolve_left (by simp)
      obtain rfl := Option.some.inj (Except.ok.inj hsame)
      exact hclosing
  · simp at h

/-- The tick of a heartbeat. -/
theorem meets_heartbeat : cleanup.Meets number (heartbeat index).outcome (Fresh number)
    fun _ world ↦ CleanedUp (world.history number) := by
  unfold heartbeat
  refine Protocol.meets_outcome_atomically (Protocol.stable_history (· = [])) ?_
  intro world hkept hfresh _
  have hhistory : world.history number = [] := hfresh
  have hstore : (world.db.tick index).store = world.db.store := by
    unfold ConnectionDb.tick
    split_ifs <;> rfl
  have hheartbeats : ∀ other ∈ (world.db.tick index).heartbeats, other ∈ world.db.heartbeats := by
    intro other hother
    unfold ConnectionDb.tick at hother
    split_ifs at hother
    · exact hother
    · exact (List.mem_filter.mp hother).1
    · exact hother
  have hkeeps : ∀ label : ConnectionStep, label.response = none →
      cleanup.Keeps number world label (world.db.tick index) ∧
        CleanedUp ((world.after number label (world.db.tick index)).history number) := by
    intro label hlabel
    refine ⟨ListenersKept.silent hkept (by rw [hstore]) (by rw [hstore]) (fun other ↦ ⟨?_, ?_⟩)
      (fun named other hmem ↦ .inl ⟨hstore ▸ hmem, ?_⟩) hheartbeats, ?_⟩
    · rintro rfl
      cases hlabel
    · rintro rfl
      cases hlabel
    · rintro ticket channel rfl
      cases hlabel
    · rw [history_after_self, hhistory]
      exact cleanedUp_nil.cons hlabel
  exact hkeeps _ (by split_ifs <;> rfl)

/-- What every call has seen to once it has returned. -/
theorem meets_connection (request : ConnectionRequest) (number : ℕ) :
    cleanup.Meets number request.serve (Fresh number)
      fun _ world ↦ CleanedUp (world.history number) := by
  have hmap : ∀ {α : Type} {call : ConnectionCall α}, (cleanup.Meets number call.outcome (Fresh number)
      fun _ world ↦ CleanedUp (world.history number)) →
        cleanup.Meets number ((fun _ ↦ none) <$> call : ConnectionCall TaskRun).outcome (Fresh number)
          fun _ world ↦ CleanedUp (world.history number) := fun hcall ↦
    Protocol.Meets.bindOutcome hcall (fun _ ↦ Protocol.meets_pure fun _ _ h ↦ h) fun _ _ _ h ↦ h
  have haside : ∀ {request : NotificationRequest}, request.serve.Only Aside →
      cleanup.Meets number (onStore request.serve).outcome (Fresh number)
        fun _ world ↦ CleanedUp (world.history number) := fun hcall ↦
    (meets_aside_cleanedUp (only_onStore hcall).outcome).strengthen fun world _ hfresh ↦
      (show world.history number = [] from hfresh) ▸ cleanedUp_nil
  cases request with
  | heartbeat index => exact hmap meets_heartbeat
  | pipeline request =>
    cases request with
    | stream userId tenantId lastEventId => exact hmap meets_streamEvents
    | close index => exact hmap meets_emitClose
    | _ => exact haside (only_serve_aside _ (by simp) (by simp))

end Requests

/-! ### The result -/

/-- The invariant holds before the first connection. -/
theorem listenersKept_initial (db : Db) : ListenersKept ⟨{ store := db.cleared }, []⟩ where
  openers := by simp
  opened := by simp
  owner channel number hmem := absurd hmem (by simp [PubSub.Registered, Db.cleared])
  listener channel number hmem := absurd hmem (by simp [PubSub.Registered, Db.cleared])
  heartbeats := by simp

/-- In every run in which a connection is still open when `stream` registers its handler and when it sets
its listener, no connection that has ended leaves anything behind. -/
theorem reachable_leavesNothing {db : Db} {config : ConnectionConfig}
    (hreach : Reachable ConnectionRequest.serve StillOpen { store := db.cleared } config) :
    LeavesNothing config := by
  have hkept : cleanup.Kept (fun number _ world ↦ CleanedUp (world.history number)) config :=
    Protocol.reachable_kept (fun _ _ ↦ stable_cleanedUp) meets_connection (listenersKept_initial db)
      hreach
  intro number stream hstream hclosed hreturned
  have hnot : ¬ config.db.store.Attached number := by
    rintro ⟨other, hother, _, hwritable⟩
    obtain rfl := Option.some.inj (hstream.symm.trans hother)
    exact absurd (hclosed.symm.trans hwritable) (by simp)
  have hclean : ∀ caller step, step ∈ config.history caller → step.response = some number →
      CleanedUp (config.history caller) := by
    intro caller step hstep hresponse
    have hentry := mem_history.mp hstep
    have hcall := List.getElem?_eq_getElem (hkept.started _ hentry)
    obtain ⟨value, hvalue⟩ := Option.isSome_iff_exists.mp (hreturned _ hentry hresponse _ hcall)
    rw [Call.returned_eq_some.mp hvalue] at hcall
    exact hkept.returned hcall
  refine ⟨fun channel hregistered ↦ ?_, fun _ hheartbeat ↦ ?_⟩
  · rcases ListenersKept.listener hkept.invariant channel number hregistered with
      hattached | ⟨caller, hregisters, hmissing⟩ | ⟨caller, hclose, hmissing⟩
    · exact hnot hattached
    · obtain ⟨ticket, other, hmem⟩ := hregisters
      exact hmissing ((hclean caller _ hmem rfl number).1 ⟨ticket, other, hmem⟩)
    · exact hmissing ((hclean caller _ hclose rfl number).2 hclose)
  · exact hnot (ListenersKept.heartbeats hkept.invariant number hheartbeat)

/-! ### Concrete runs -/

instance {world : ConnectionWorld} : (label : ConnectionStep) → Decidable (AwaitsCommand world label)
  | .of step => inferInstanceAs
      (Decidable (∀ ticket ∈ step.awaited, ticket < world.db.store.pubSub.taken))
  | .opened _ | .attached _ | .closed .. | .ticked _ => .isTrue trivial

instance {world : ConnectionWorld} : (label : ConnectionStep) → Decidable (StillOpen world label)
  | .of (.registered _ _ handler) => inferInstanceAs (Decidable (world.db.store.isOpen handler = true))
  | .attached number => inferInstanceAs (Decidable (world.db.store.isOpen number = true))
  | .of .other | .of (.inserted ..) | .of (.emailScheduled ..) | .of (.published _)
  | .of (.emailProcessed ..) | .of (.message ..) | .of (.closed _) | .of (.subscribing ..)
  | .of (.unsubscribed ..) | .of (.resumed _) | .opened _ | .closed .. | .ticked _ => .isTrue trivial

instance {config : ConnectionConfig} {number : ℕ} : Decidable (AllReturned config number) :=
  inferInstanceAs (Decidable (∀ entry ∈ config.log, entry.2.response = some number →
    ∀ call ∈ config.calls[entry.1]?, call.returned.isSome = true))

/-- A client opens a stream, which subscribes up to its await. -/
def openUntilSubscribing : List (Choice ConnectionRequest) :=
  .start (.pipeline (.stream 7 1 none)) :: List.replicate 5 (.resume 0)

/-- Valkey takes the command, the stream is set up, its heartbeat ticks, and the client goes. -/
def comesAndGoes : List (Choice ConnectionRequest) :=
  openUntilSubscribing ++ [.start (.pipeline .takeCommand), .resume 1, .resume 0, .resume 0,
    .start (.heartbeat 0), .resume 2, .start (.pipeline (.close 0)), .resume 3, .resume 3,
    .start (.pipeline .takeCommand), .resume 4, .resume 3]

/-- The client goes while the stream awaits its command, and the heartbeat ticks in the end. -/
def closedWhileSubscribing : List (Choice ConnectionRequest) :=
  openUntilSubscribing ++ [.start (.pipeline (.close 0)), .resume 1, .start (.pipeline .takeCommand),
    .resume 2, .resume 0, .resume 0, .start (.heartbeat 0), .resume 3]

/-- The configuration after such a run. -/
def connectionConfig (choices : List (Choice ConnectionRequest)) : ConnectionConfig :=
  (Config.initial { store := quietDb.cleared }).play ConnectionRequest.serve choices

/-- A witness: a client that comes and goes. -/
theorem reachable_leavesNothing_witness : LeavesNothing (connectionConfig comesAndGoes) := by
  have hreach : Reachable ConnectionRequest.serve StillOpen { store := quietDb.cleared }
      (connectionConfig comesAndGoes) := play_reachable (by decide +kernel)
  exact reachable_leavesNothing hreach

/-- A connection that has ended may leave something: the handler of a client that has gone is registered,
and stays. -/
theorem closedWhileSubscribing_leaks :
    ¬ ∀ config : ConnectionConfig,
      Reachable ConnectionRequest.serve AwaitsCommand { store := quietDb.cleared } config →
        LeavesNothing config := by
  intro halways
  have hreach : Reachable ConnectionRequest.serve AwaitsCommand { store := quietDb.cleared }
      (connectionConfig closedWhileSubscribing) := play_reachable (by decide +kernel)
  have hfails : AllReturned (connectionConfig closedWhileSubscribing) 0 ∧
      ∃ stream ∈ (connectionConfig closedWhileSubscribing).db.store.streams[0]?,
        stream.writable = false ∧
          (0 ∈ ((connectionConfig closedWhileSubscribing).db.store.pubSub.handlers
            (quietDb.userChannel 7)).getD []) := by decide +kernel
  obtain ⟨hreturned, stream, hstream, hclosed, hregistered⟩ := hfails
  exact (halways _ hreach 0 stream hstream hclosed hreturned).1 _ hregistered

end RallyApi.Notifications
