import RallyApi.Concurrency.Outcomes
import RallyApi.Concurrency.Returns
import RallyApi.Notifications.PubSub

/-!
# Bookkeeping of subscriptions

Calls of `subscribe`, and of the functions it returns, on any channels, with Valkey taking the commands
they issue in order. `Bookkept` says what should hold of a configuration: no call has crashed, and when no
call is pending, Valkey has the process subscribed to exactly the channels with a handler, and a handler
whose subscription is outstanding is registered.

It fails when an unsubscribe empties the set of a channel while a subscribe of that channel awaits its
command: the set is deleted, and the subscriber finds none when it resumes. `reachable_bookkept` shows
that it holds in every run without such a step. The invariant is `Bookkeeping`: the tickets of the
commands belong to one call each, a set is empty only while a subscribe is waiting, and the commands still
to be taken bring Valkey to the channels with a set.
-/

set_option autoImplicit false
set_option relaxedAutoImplicit false

namespace RallyApi.Notifications

open Concurrency Platform

/-! ### The calls of the service -/

/-- A call on the service, or Valkey's turn. -/
inductive PubSubRequest
  | subscribe (channel : Channel) (handler : Handler)
  | unsubscribe (channel : Channel) (handler : Handler)
  | takeCommand
  deriving DecidableEq, Repr

/-- The call that serves a request, and how it ends. -/
def PubSubRequest.serve : PubSubRequest → NotificationCall (Except Failure Unit)
  | .subscribe channel handler => (Notifications.subscribe channel handler).outcome
  | .unsubscribe channel handler => (Notifications.unsubscribe channel handler).outcome
  | .takeCommand => Notifications.takeCommand.outcome

/-- A configuration of the service. -/
abbrev PubSubConfig := Config Db NotificationStep Failure (Except Failure Unit)

/-- A history of the service, most recent step first. -/
abbrev PubSubLog := List (ℕ × NotificationStep)

/-! ### What the steps are about -/

/-- The ticket of the command a step issues. -/
def NotificationStep.issues : NotificationStep → Option ℕ
  | .subscribing ticket _ => some ticket
  | .unsubscribed ticket _ _ => ticket
  | _ => none

/-- The ticket of the command a step has awaited. -/
def NotificationStep.awaited : NotificationStep → Option ℕ
  | .registered ticket _ _ => ticket
  | .resumed ticket => some ticket
  | _ => none

/-- The ticket of the command a subscribe of the channel issues. -/
def NotificationStep.subscribes (channel : Channel) : NotificationStep → Option ℕ
  | .subscribing ticket named => if named = channel then some ticket else none
  | _ => none

/-- The handler a step registers. -/
def NotificationStep.registers : NotificationStep → Option (Channel × Handler)
  | .registered _ channel handler => some (channel, handler)
  | _ => none

/-- The handler a step unsubscribes. -/
def NotificationStep.unsubscribes : NotificationStep → Option (Channel × Handler)
  | .unsubscribed _ channel handler => some (channel, handler)
  | _ => none

/-- A subscribe of the channel awaits its command. -/
def Waiting (log : PubSubLog) (channel : Channel) : Prop :=
  ∃ entry ∈ log, ∃ ticket ∈ entry.2.subscribes channel,
    ∀ other ∈ log, other.2.awaited ≠ some ticket

/-- The subscription of a handler is outstanding: it was registered, and not unsubscribed since. -/
def Outstanding (channel : Channel) (handler : Handler) : PubSubLog → Prop
  | [] => False
  | entry :: rest => entry.2.registers = some (channel, handler) ∨
    entry.2.unsubscribes ≠ some (channel, handler) ∧ Outstanding channel handler rest

/-- The handler is in the set of the channel. -/
def PubSub.Registered (pubSub : PubSub) (channel : Channel) (handler : Handler) : Prop :=
  handler ∈ (pubSub.handlers channel).getD []

/-- A call resumes once Valkey has taken the command it awaits. -/
def CommandTaken (world : World Db NotificationStep) (step : NotificationStep) : Prop :=
  ∀ ticket ∈ step.awaited, ticket < world.db.pubSub.taken

/-- No unsubscribe leaves the set of a channel empty while a subscribe of that channel awaits its
command. -/
def SparesWaiting (world : World Db NotificationStep) (step : NotificationStep) : Prop :=
  ∀ target ∈ step.unsubscribes,
    (world.db.pubSub.handlers target.1).map (deleteHandler target.2) = some [] →
      ¬ Waiting world.log target.1

/-- No call is pending. -/
def Quiescent (config : PubSubConfig) : Prop := ∀ call ∈ config.calls, call.returned ≠ none

/-- What the bookkeeping should ensure. -/
structure Bookkept (config : PubSubConfig) : Prop where
  noCrash : ∀ call ∈ config.calls, call.returned ≠ some (.error .typeError)
  subscribed : Quiescent config → ∀ channel, config.db.pubSub.subscribed channel = true ↔
    ∃ handler, config.db.pubSub.Registered channel handler
  registered : Quiescent config → ∀ channel handler, Outstanding channel handler config.log →
    config.db.pubSub.Registered channel handler

/-! ### The invariant -/

/-- The channels that are subscribed once Valkey has taken all commands. -/
def PubSub.drained (pubSub : PubSub) : Channel → Bool :=
  (pubSub.issued.drop pubSub.taken).foldl Command.run pubSub.subscribed

/-- The tickets of a history: a ticket names the command one call has issued, and who has awaited it has
issued it, and finds it taken. -/
structure Ticketed (world : World Db NotificationStep) : Prop where
  issuer : ∀ first ∈ world.log, ∀ second ∈ world.log, ∀ ticket,
    first.2.issues = some ticket → second.2.issues = some ticket → first.1 = second.1
  issued : ∀ entry ∈ world.log, ∀ ticket, entry.2.issues = some ticket →
    ticket < world.db.pubSub.issued.length
  recorded : ∀ ticket, ticket < world.db.pubSub.issued.length →
    ∃ entry ∈ world.log, entry.2.issues = some ticket
  awaited : ∀ entry ∈ world.log, ∀ ticket, entry.2.awaited = some ticket →
    ticket < world.db.pubSub.taken ∧ ∃ start ∈ world.history entry.1, start.issues = some ticket
  taken : world.db.pubSub.taken ≤ world.db.pubSub.issued.length

/-- The invariant of the service. -/
structure Bookkeeping (world : World Db NotificationStep) : Prop extends Ticketed world where
  waiting : ∀ channel, Waiting world.log channel → world.db.pubSub.handlers channel ≠ none
  empty : ∀ channel, world.db.pubSub.handlers channel = some [] → Waiting world.log channel
  drained : ∀ channel,
    world.db.pubSub.drained channel = (world.db.pubSub.handlers channel).isSome
  outstanding : ∀ channel handler, Outstanding channel handler world.log →
    world.db.pubSub.Registered channel handler

/-! ### Tickets -/

section Tickets

variable {world : World Db NotificationStep} {number ticket : ℕ} {label start : NotificationStep}
  {after : Db} {channel : Channel} {entry : ℕ × NotificationStep} {log : PubSubLog}

/-- A subscribe issues a command. -/
theorem issues_of_subscribes (hsubscribes : label.subscribes channel = some ticket) :
    label.issues = some ticket := by
  cases label with
  | subscribing issued named =>
    simp only [NotificationStep.subscribes] at hsubscribes
    split_ifs at hsubscribes
    exact hsubscribes
  | _ => simp [NotificationStep.subscribes] at hsubscribes

/-- Whoever has issued the command of one's own ticket is oneself. -/
theorem Ticketed.own (hticketed : Ticketed world) (hstart : start ∈ world.history number)
    (hissues : start.issues = some ticket) (hentry : entry ∈ world.log)
    (hsame : entry.2.issues = some ticket) : entry.2 ∈ world.history number := by
  have hnumber : entry.1 = number :=
    hticketed.issuer entry hentry _ (mem_history.mp hstart) ticket hsame hissues
  rw [mem_history, ← hnumber]
  exact hentry

/-- Nobody else awaits one's own ticket. -/
theorem Ticketed.not_awaited (hticketed : Ticketed world) (hstart : start ∈ world.history number)
    (hissues : start.issues = some ticket)
    (hown : ∀ step ∈ world.history number, step.awaited ≠ some ticket) :
    ∀ entry ∈ world.log, entry.2.awaited ≠ some ticket := by
  intro entry hentry hawaited
  obtain ⟨_, first, hfirst, hsame⟩ := hticketed.awaited entry hentry ticket hawaited
  have hnumber : entry.1 = number :=
    hticketed.issuer _ (mem_history.mp hfirst) _ (mem_history.mp hstart) ticket hsame hissues
  refine hown entry.2 ?_ hawaited
  rw [mem_history, ← hnumber]
  exact hentry

/-- Assumes: a step issues the next command or none, and awaits a command that has been taken and that its
call has issued; and Valkey has taken no more than has been issued. The step keeps the tickets. -/
theorem Ticketed.step (hticketed : Ticketed world)
    (hissued : label.issues = none ∧ after.pubSub.issued.length = world.db.pubSub.issued.length ∨
      label.issues = some world.db.pubSub.issued.length ∧
        after.pubSub.issued.length = world.db.pubSub.issued.length + 1)
    (hawaited : ∀ ticket, label.awaited = some ticket → ticket < after.pubSub.taken ∧
      ∃ start ∈ world.history number, start.issues = some ticket)
    (htaken : world.db.pubSub.taken ≤ after.pubSub.taken)
    (hbound : after.pubSub.taken ≤ after.pubSub.issued.length) :
    Ticketed (world.after number label after) where
  issuer first hfirst second hsecond ticket hone htwo := by
    rcases List.mem_cons.mp hfirst with rfl | hfirst <;>
      rcases List.mem_cons.mp hsecond with rfl | hsecond
    · rfl
    · have hold := hticketed.issued second hsecond ticket htwo
      grind
    · have hold := hticketed.issued first hfirst ticket hone
      grind
    · exact hticketed.issuer first hfirst second hsecond ticket hone htwo
  issued entry hentry ticket hticket := by
    change ticket < after.pubSub.issued.length
    rcases List.mem_cons.mp hentry with rfl | hold
    · grind
    · have hbefore := hticketed.issued entry hold ticket hticket
      omega
  recorded ticket hticket := by
    by_cases hold : ticket < world.db.pubSub.issued.length
    · obtain ⟨entry, hentry, hissues⟩ := hticketed.recorded ticket hold
      exact ⟨entry, .tail _ hentry, hissues⟩
    · refine ⟨_, .head _, ?_⟩
      change ticket < after.pubSub.issued.length at hticket
      grind
  awaited entry hentry ticket hticket := by
    rcases List.mem_cons.mp hentry with rfl | hold
    · obtain ⟨htime, start, hstart, hsame⟩ := hawaited ticket hticket
      exact ⟨htime, start, mem_history_after.mpr (.inr hstart), hsame⟩
    · obtain ⟨htime, start, hstart, hsame⟩ := hticketed.awaited entry hold ticket hticket
      exact ⟨Nat.lt_of_lt_of_le htime htaken, start, mem_history_after.mpr (.inr hstart), hsame⟩
  taken := hbound

/-! ### Waiting -/

/-- Only a subscribe of the channel adds to those who wait. -/
theorem waiting_of_cons (hwaiting : Waiting (entry :: log) channel)
    (hsubscribes : entry.2.subscribes channel = none) : Waiting log channel := by
  obtain ⟨start, hstart, ticket, hticket, hothers⟩ := hwaiting
  rcases List.mem_cons.mp hstart with rfl | hold
  · rw [hsubscribes] at hticket
    cases hticket
  · exact ⟨start, hold, ticket, hticket, fun other hother ↦ hothers other (.tail _ hother)⟩

/-- Who waits goes on waiting, unless the step awaits the ticket. -/
theorem Waiting.cons (hwaiting : Waiting log channel)
    (hawaited : ∀ ticket, entry.2.awaited = some ticket →
      ∀ start ∈ log, start.2.subscribes channel ≠ some ticket) :
    Waiting (entry :: log) channel := by
  obtain ⟨start, hstart, ticket, hticket, hothers⟩ := hwaiting
  refine ⟨start, .tail _ hstart, ticket, hticket, fun other hother hsame ↦ ?_⟩
  rcases List.mem_cons.mp hother with rfl | hold
  · exact hawaited ticket hsame start hstart hticket
  · exact hothers other hold hsame

end Tickets

/-! ### The map of sets -/

section Sets

variable {pubSub : PubSub} {channel other : Channel} {handler named : Handler}
  {set : Option (List Handler)} {command : Command}

@[simp]
theorem handlers_setHandlers :
    (pubSub.setHandlers channel set).handlers other =
      if other = channel then set else pubSub.handlers other := rfl

@[simp]
theorem handlers_issue : (pubSub.issue command).handlers = pubSub.handlers := rfl

@[simp]
theorem drained_setHandlers : (pubSub.setHandlers channel set).drained = pubSub.drained := rfl

theorem mem_addHandler {elements : List Handler} :
    named ∈ addHandler handler elements ↔ named = handler ∨ named ∈ elements := by
  unfold addHandler
  split_ifs with hmem
  · exact ⟨.inr, fun h ↦ h.elim (fun hsame ↦ hsame ▸ hmem) id⟩
  · rw [List.mem_append, List.mem_singleton, or_comm]

theorem addHandler_ne_nil {elements : List Handler} : addHandler handler elements ≠ [] :=
  List.ne_nil_of_mem (mem_addHandler.mpr (.inl rfl))

theorem mem_deleteHandler {elements : List Handler} :
    named ∈ deleteHandler handler elements ↔ named ∈ elements ∧ named ≠ handler := by
  simp [deleteHandler]

/-- One more command, to be taken last. -/
theorem drained_issue (htaken : pubSub.taken ≤ pubSub.issued.length) :
    (pubSub.issue command).drained = command.run pubSub.drained := by
  simp only [PubSub.drained, PubSub.issue]
  rw [List.drop_append_of_le_length htaken, List.foldl_append]
  rfl

/-- Taking a command leaves what is subscribed in the end. -/
theorem drained_takeCommand : pubSub.takeCommand.drained = pubSub.drained := by
  unfold PubSub.takeCommand
  split
  · rfl
  · rename_i command hcommand
    obtain ⟨hlength, hcommand⟩ := List.getElem?_eq_some_iff.mp hcommand
    simp only [PubSub.drained]
    rw [List.drop_eq_getElem_cons hlength, List.foldl_cons, hcommand]

/-- Valkey takes the commands one at a time, as far as there are any. -/
theorem taken_takeCommand (htaken : pubSub.taken ≤ pubSub.issued.length) :
    pubSub.taken ≤ pubSub.takeCommand.taken ∧
      pubSub.takeCommand.taken ≤ pubSub.takeCommand.issued.length ∧
        pubSub.takeCommand.issued = pubSub.issued ∧
          pubSub.takeCommand.handlers = pubSub.handlers := by
  unfold PubSub.takeCommand
  split
  · exact ⟨Nat.le_refl _, htaken, rfl, rfl⟩
  · rename_i command hcommand
    have hlength := (List.getElem?_eq_some_iff.mp hcommand).1
    exact ⟨Nat.le_succ _, hlength, rfl, rfl⟩

end Sets

/-! ### What each step keeps -/

section Steps

variable {world : World Db NotificationStep} {number ticket : ℕ} {label : NotificationStep}
  {after : Db} {channel : Channel} {handler : Handler} {set : List Handler}

/-- Assumes: a step that keeps the tickets changes the set of one channel at most, and keeps what the
invariant says of that channel and what it says of all channels. It keeps the invariant. -/
theorem Bookkeeping.step (hkeeping : Bookkeeping world) (channel : Channel)
    (hticketed : Ticketed (world.after number label after))
    (hothers : ∀ other, other ≠ channel →
      after.pubSub.handlers other = world.db.pubSub.handlers other)
    (hsubscribes : ∀ other, other ≠ channel → label.subscribes other = none)
    (hawaited : ∀ other, other ≠ channel → ∀ ticket, label.awaited = some ticket →
      ∀ start ∈ world.log, start.2.subscribes other ≠ some ticket)
    (hwaiting : Waiting (world.after number label after).log channel →
      after.pubSub.handlers channel ≠ none)
    (hempty : after.pubSub.handlers channel = some [] →
      Waiting (world.after number label after).log channel)
    (hdrained : ∀ other,
      after.pubSub.drained other = (after.pubSub.handlers other).isSome)
    (houtstanding : ∀ other named, Outstanding other named (world.after number label after).log →
      after.pubSub.Registered other named) :
    Bookkeeping (world.after number label after) where
  toTicketed := hticketed
  waiting other hwaits := by
    by_cases hsame : other = channel
    · subst hsame
      exact hwaiting hwaits
    · change after.pubSub.handlers other ≠ none
      rw [hothers other hsame]
      exact hkeeping.waiting other (waiting_of_cons hwaits (hsubscribes other hsame))
  empty other hnil := by
    by_cases hsame : other = channel
    · subst hsame
      exact hempty hnil
    · change after.pubSub.handlers other = some [] at hnil
      rw [hothers other hsame] at hnil
      exact (hkeeping.empty other hnil).cons (hawaited other hsame)
  drained := hdrained
  outstanding := houtstanding

/-- A handler joins the set of its channel: at once, or when the command its subscribe has issued has been
taken. -/
theorem Bookkeeping.register (hkeeping : Bookkeeping world) {issued : Option ℕ}
    (hset : world.db.pubSub.handlers channel = some set)
    (hown : ∀ ticket, issued = some ticket → ticket < world.db.pubSub.taken ∧
      world.history number = [.subscribing ticket channel]) :
    Bookkeeping (world.after number (.registered issued channel handler) { world.db with
      pubSub := world.db.pubSub.setHandlers channel (some (addHandler handler set)) }) := by
  refine hkeeping.step channel ?_ ?_ (fun _ _ ↦ rfl) ?_ ?_ ?_ ?_ ?_
  · refine hkeeping.toTicketed.step (.inl ⟨rfl, rfl⟩) (fun ticket hticket ↦ ?_) (Nat.le_refl _)
      hkeeping.taken
    · obtain ⟨htaken, hhistory⟩ := hown ticket hticket
      exact ⟨htaken, _, hhistory ▸ List.mem_singleton_self _, rfl⟩
  · intro other hne
    simp [hne]
  · intro other hne ticket hticket start hstart hsubscribes
    obtain ⟨_, hhistory⟩ := hown ticket hticket
    have hmem := hkeeping.own (hhistory ▸ List.mem_singleton_self _) rfl hstart
      (issues_of_subscribes hsubscribes)
    rw [hhistory, List.mem_singleton] at hmem
    simp [hmem, NotificationStep.subscribes, Ne.symm hne] at hsubscribes
  · simp
  · simp [addHandler_ne_nil]
  · intro other
    have hdrained := hkeeping.drained other
    by_cases hsame : other = channel <;> simp_all
  · rintro other named (hnew | ⟨_, hold⟩)
    · obtain ⟨rfl, rfl⟩ := Prod.mk.inj (Option.some.inj hnew)
      simp [PubSub.Registered, mem_addHandler]
    · have hregistered := hkeeping.outstanding other named hold
      by_cases hsame : other = channel <;> simp_all [PubSub.Registered, mem_addHandler]

/-- A subscribe makes the set of its channel and issues its command: it is the one that waits. -/
theorem Bookkeeping.subscribing (hkeeping : Bookkeeping world)
    (hset : world.db.pubSub.handlers channel = none) :
    Bookkeeping (world.after number (.subscribing world.db.pubSub.issued.length channel)
      { world.db with
        pubSub := (world.db.pubSub.setHandlers channel (some [])).issue (.subscribe channel) }) := by
  have htaken := hkeeping.taken
  refine hkeeping.step channel ?_ ?_ ?_ (fun _ _ _ hawaited ↦ ?_) ?_ (fun _ ↦ ?_) ?_ ?_
  · refine hkeeping.toTicketed.step (.inr ⟨rfl, ?_⟩) (fun _ hawaited ↦ ?_) (Nat.le_refl _) ?_
    · simp [PubSub.issue, PubSub.setHandlers]
    · cases hawaited
    · simp only [PubSub.issue, PubSub.setHandlers, List.length_append]
      omega
  · intro other hne
    simp [hne]
  · intro other hne
    simp [NotificationStep.subscribes, Ne.symm hne]
  · cases hawaited
  · simp
  · refine ⟨_, .head _, world.db.pubSub.issued.length, by simp [NotificationStep.subscribes], ?_⟩
    intro entry hentry hawaited
    rcases List.mem_cons.mp hentry with rfl | hold
    · cases hawaited
    · have hbefore := (hkeeping.awaited entry hold _ hawaited).1
      omega
  · intro other
    have hdrained := hkeeping.drained other
    rw [drained_issue (show (world.db.pubSub.setHandlers channel (some [])).taken ≤ _ from htaken)]
    by_cases hsame : other = channel <;> simp_all [Command.run]
  · rintro other named (hnew | ⟨_, hold⟩)
    · cases hnew
    · have hregistered := hkeeping.outstanding other named hold
      by_cases hsame : other = channel <;> simp_all [PubSub.Registered]

/-- A handler leaves the set of its channel, and others stay. -/
theorem Bookkeeping.leave (hkeeping : Bookkeeping world)
    (hset : world.db.pubSub.handlers channel = some set) (hstay : deleteHandler handler set ≠ []) :
    Bookkeeping (world.after number (.unsubscribed none channel handler) { world.db with
      pubSub := world.db.pubSub.setHandlers channel (some (deleteHandler handler set)) }) := by
  refine hkeeping.step channel ?_ ?_ (fun _ _ ↦ rfl) (fun _ _ _ hawaited ↦ ?_) ?_ ?_ ?_ ?_
  · refine hkeeping.toTicketed.step (.inl ⟨rfl, rfl⟩) (fun _ hawaited ↦ ?_) (Nat.le_refl _)
      hkeeping.taken
    cases hawaited
  · intro other hne
    simp [hne]
  · cases hawaited
  · simp
  · simp [hstay]
  · intro other
    have hdrained := hkeeping.drained other
    by_cases hsame : other = channel <;> simp_all
  · rintro other named (hnew | ⟨hne, hold⟩)
    · cases hnew
    · have hregistered := hkeeping.outstanding other named hold
      by_cases hsame : other = channel
      · subst hsame
        have hnamed : named ≠ handler := fun heq ↦ hne (heq ▸ rfl)
        simp_all [PubSub.Registered, mem_deleteHandler]
      · simpa [PubSub.Registered, hsame] using hregistered

/-- The last handler leaves the set of its channel, and the set is deleted: nobody waits for it. -/
theorem Bookkeeping.close (hkeeping : Bookkeeping world)
    (hset : world.db.pubSub.handlers channel = some set) (hlast : deleteHandler handler set = [])
    (hspared : ¬ Waiting world.log channel) :
    Bookkeeping (world.after number
      (.unsubscribed (some world.db.pubSub.issued.length) channel handler) { world.db with
        pubSub := (world.db.pubSub.setHandlers channel none).issue (.unsubscribe channel) }) := by
  have htaken := hkeeping.taken
  refine hkeeping.step channel ?_ ?_ (fun _ _ ↦ rfl) (fun _ _ _ hawaited ↦ ?_)
    (fun hwaits ↦ ?_) ?_ ?_ ?_
  · refine hkeeping.toTicketed.step (.inr ⟨rfl, ?_⟩) (fun _ hawaited ↦ ?_) (Nat.le_refl _) ?_
    · simp [PubSub.issue, PubSub.setHandlers]
    · cases hawaited
    · simp only [PubSub.issue, PubSub.setHandlers, List.length_append]
      omega
  · intro other hne
    simp [hne]
  · cases hawaited
  · exact absurd (waiting_of_cons hwaits rfl) hspared
  · simp
  · intro other
    have hdrained := hkeeping.drained other
    rw [drained_issue (show (world.db.pubSub.setHandlers channel none).taken ≤ _ from htaken)]
    by_cases hsame : other = channel <;> simp_all [Command.run]
  · rintro other named (hnew | ⟨hne, hold⟩)
    · cases hnew
    · have hregistered := hkeeping.outstanding other named hold
      by_cases hsame : other = channel
      · subst hsame
        have hnamed : named ≠ handler := fun heq ↦ hne (heq ▸ rfl)
        have hmem : named ∈ set := by
          simpa [PubSub.Registered, hset] using hregistered
        have hleft := mem_deleteHandler.mpr ⟨hmem, hnamed⟩
        simp [hlast] at hleft
      · simpa [PubSub.Registered, hsame] using hregistered

/-- A step that leaves the sets alone, and is no end of a subscribe. -/
theorem Bookkeeping.idle (hkeeping : Bookkeeping world)
    (hticketed : Ticketed (world.after number label after))
    (hhandlers : after.pubSub.handlers = world.db.pubSub.handlers)
    (hdrained : after.pubSub.drained = world.db.pubSub.drained)
    (hsubscribes : ∀ other, label.subscribes other = none)
    (hawaited : ∀ other ticket, label.awaited = some ticket →
      ∀ start ∈ world.log, start.2.subscribes other ≠ some ticket)
    (hregisters : label.registers = none) :
    Bookkeeping (world.after number label after) where
  toTicketed := hticketed
  waiting other hwaits := by
    change after.pubSub.handlers other ≠ none
    rw [hhandlers]
    exact hkeeping.waiting other (waiting_of_cons hwaits (hsubscribes other))
  empty other hnil := by
    change after.pubSub.handlers other = some [] at hnil
    rw [hhandlers] at hnil
    exact (hkeeping.empty other hnil).cons (hawaited other)
  drained other := by
    change after.pubSub.drained other = (after.pubSub.handlers other).isSome
    rw [hhandlers, hdrained]
    exact hkeeping.drained other
  outstanding other named := by
    rintro (hnew | ⟨_, hold⟩)
    · rw [hregisters] at hnew
      cases hnew
    · change named ∈ (after.pubSub.handlers other).getD []
      rw [hhandlers]
      exact hkeeping.outstanding other named hold

end Steps

/-! ### The calls keep the invariant -/

/-- Calls of the service keep the invariant in the runs in which a call resumes once its command has been
taken, and no unsubscribe deletes the set of a channel that a subscribe waits for. -/
def bookkeeping : Protocol Db NotificationStep where
  permits world step := CommandTaken world step ∧ SparesWaiting world step
  invariant := Bookkeeping
  guarantee _ _ _ _ := True

/-- A call has awaited the command it has issued. -/
def Settled (steps : List NotificationStep) : Prop :=
  ∀ start ∈ steps, ∀ ticket, start.issues = some ticket → ∃ step ∈ steps, step.awaited = some ticket

/-- What a call promises of its end: it has not crashed, and it awaits nothing anymore. -/
def Ended (number : ℕ) (result : Except Failure Unit) (world : World Db NotificationStep) : Prop :=
  result ≠ .error .typeError ∧ Settled (world.history number)

section Calls

variable {number : ℕ} {channel : Channel} {handler : Handler}

theorem stable_ended (result : Except Failure Unit) :
    bookkeeping.Stable number (Ended number result) :=
  Protocol.stable_history fun steps ↦ result ≠ .error .typeError ∧ Settled steps

/-- What a subscribe knows at its await. -/
def Subscribing (number : ℕ) (channel : Channel) (handler : Handler)
    (world : World Db NotificationStep) : Except Failure (Option ℕ) → Prop
  | .ok none => world.history number = [.registered none channel handler]
  | .ok (some ticket) => world.history number = [.subscribing ticket channel]
  | .error _ => False

theorem meets_startSubscribe :
    bookkeeping.Meets number (startSubscribe channel handler).outcome (Fresh number)
      fun result world ↦ Subscribing number channel handler world result := by
  unfold startSubscribe
  refine Protocol.meets_outcome_atomically (Protocol.stable_history (· = [])) ?_
  intro world hkeeping hfresh _
  have hhistory : world.history number = [] := hfresh
  cases hset : world.db.pubSub.handlers channel with
  | none =>
    simp only [PubSub.subscribe, hset]
    exact ⟨⟨trivial, hkeeping.subscribing hset⟩, by simp [Subscribing, hhistory]⟩
  | some set =>
    simp only [PubSub.subscribe, hset]
    exact ⟨⟨trivial, hkeeping.register hset (by simp)⟩, by simp [Subscribing, hhistory]⟩

/-- A subscribe that has issued its command and not resumed yet waits for the set of its channel. -/
theorem waiting_of_history {world : World Db NotificationStep} {ticket : ℕ}
    (hticketed : Ticketed world) (hhistory : world.history number = [.subscribing ticket channel]) :
    Waiting world.log channel := by
  have hstart : NotificationStep.subscribing ticket channel ∈ world.history number := by
    simp [hhistory]
  refine ⟨_, mem_history.mp hstart, ticket, by simp [NotificationStep.subscribes], ?_⟩
  refine hticketed.not_awaited hstart rfl fun step hstep hawaited ↦ ?_
  rw [hhistory, List.mem_singleton] at hstep
  subst hstep
  cases hawaited

/-- A subscribe finds the set of its channel when it resumes. -/
theorem meets_resumeSubscribe {ticket : ℕ} :
    bookkeeping.Meets number (resumeSubscribe ticket channel handler).outcome
      (fun world ↦ world.history number = [.subscribing ticket channel])
      fun result world ↦ result = .ok true ∧ Settled (world.history number) := by
  unfold resumeSubscribe
  refine Protocol.meets_outcome_atomically
    (Protocol.stable_history (· = [NotificationStep.subscribing ticket channel])) ?_
  intro world hkeeping hhistory hpermits
  have htaken : ticket < world.db.pubSub.taken := by
    refine hpermits.1 ticket ?_
    split_ifs <;> rfl
  have hwaiting := waiting_of_history hkeeping.toTicketed hhistory
  obtain ⟨set, hset⟩ := Option.ne_none_iff_exists'.mp (hkeeping.waiting channel hwaiting)
  simp only [PubSub.register, hset, if_true]
  refine ⟨⟨trivial, hkeeping.register hset fun _ hsame ↦ ?_⟩, trivial, ?_⟩
  · obtain rfl := Option.some.inj hsame
    exact ⟨htaken, hhistory⟩
  · simp [Settled, hhistory, NotificationStep.issues, NotificationStep.awaited]

theorem meets_subscribe :
    bookkeeping.Meets number (Notifications.subscribe channel handler).outcome (Fresh number)
      (Ended number) := by
  refine Protocol.Meets.bindOutcome meets_startSubscribe (fun ticket ↦ ?_) fun _ _ _ h ↦ h.elim
  cases ticket with
  | none =>
    refine Protocol.meets_pure fun world _ hhistory ↦ ⟨by simp, ?_⟩
    rw [show world.history number = _ from hhistory]
    simp [Settled, NotificationStep.issues]
  | some ticket =>
    refine Protocol.Meets.bindOutcome meets_resumeSubscribe (fun found ↦ ?_) fun _ _ _ h ↦ ?_
    · cases found with
      | true => exact fun world _ hfound ↦ ⟨by simp, hfound.2⟩
      | false => exact fun world _ hfound ↦ absurd hfound.1 (by simp)
    · exact absurd h.1 (by simp)

theorem meets_startUnsubscribe :
    bookkeeping.Meets number (startUnsubscribe channel handler).outcome (Fresh number)
      fun result world ↦ ∃ ticket, result = .ok ticket ∧
        world.history number = [.unsubscribed ticket channel handler] := by
  unfold startUnsubscribe
  refine Protocol.meets_outcome_atomically (Protocol.stable_history (· = [])) ?_
  intro world hkeeping hfresh hpermits
  have hhistory : world.history number = [] := hfresh
  refine ⟨⟨trivial, ?_⟩, _, rfl, by simp [hhistory]⟩
  change Bookkeeping _
  cases hset : world.db.pubSub.handlers channel with
  | none =>
    simp only [PubSub.unsubscribe, hset]
    refine hkeeping.idle ?_ rfl rfl (fun _ ↦ rfl) ?_ rfl
    · exact hkeeping.toTicketed.step (.inl ⟨rfl, rfl⟩) (by rintro _ ⟨⟩) (Nat.le_refl _) hkeeping.taken
    · rintro _ _ ⟨⟩
  | some set =>
    by_cases hlast : deleteHandler handler set = []
    · simp only [PubSub.unsubscribe, hset, hlast, if_true]
      refine hkeeping.close hset hlast (hpermits.2 (channel, handler) rfl ?_)
      rw [hset, Option.map_some, hlast]
    · simp only [PubSub.unsubscribe, hset, hlast, if_false]
      exact hkeeping.leave hset hlast

/-- The function `subscribe` returns, when the command it has issued has been taken. -/
theorem meets_resumeUnsubscribe {ticket : ℕ} :
    bookkeeping.Meets number
      (Call.query (.resumed ticket) fun _ ↦ () : NotificationCall Unit).outcome
      (fun world ↦ world.history number = [.unsubscribed (some ticket) channel handler])
      (Ended number) := by
  change bookkeeping.Meets number
    (Call.atomically (fun _ ↦ .resumed ticket) fun db ↦ ((), db) : NotificationCall Unit).outcome _ _
  refine Protocol.meets_outcome_atomically
    (Protocol.stable_history (· = [NotificationStep.unsubscribed (some ticket) channel handler])) ?_
  intro world hkeeping hhistory hpermits
  have hstart : NotificationStep.unsubscribed (some ticket) channel handler ∈ world.history number := by
    simp [hhistory]
  refine ⟨⟨trivial, hkeeping.idle ?_ rfl rfl (fun _ ↦ rfl) ?_ rfl⟩, by simp, ?_⟩
  · refine hkeeping.toTicketed.step (.inl ⟨rfl, rfl⟩) ?_ (Nat.le_refl _) hkeeping.taken
    rintro _ ⟨⟩
    exact ⟨hpermits.1 ticket rfl, _, hstart, rfl⟩
  · rintro other _ ⟨⟩ start hmem hsubscribes
    have hown := hkeeping.own hstart rfl hmem (issues_of_subscribes hsubscribes)
    rw [hhistory, List.mem_singleton] at hown
    simp [hown, NotificationStep.subscribes] at hsubscribes
  · simp [Settled, hhistory, NotificationStep.issues, NotificationStep.awaited]

theorem meets_unsubscribe :
    bookkeeping.Meets number (Notifications.unsubscribe channel handler).outcome (Fresh number)
      (Ended number) := by
  refine Protocol.Meets.bindOutcome meets_startUnsubscribe (fun ticket ↦ ?_) ?_
  · cases ticket with
    | none =>
      refine Protocol.meets_pure fun world _ hresult ↦ ⟨by simp, ?_⟩
      obtain ⟨_, hsame, hhistory⟩ := hresult
      obtain rfl := Except.ok.inj hsame
      simp [Settled, hhistory, NotificationStep.issues]
    | some ticket =>
      refine Protocol.Meets.strengthen meets_resumeUnsubscribe fun world _ hresult ↦
        (show world.history number = [.unsubscribed (some ticket) channel handler] from ?_)
      obtain ⟨_, hsame, hhistory⟩ := hresult
      obtain rfl := Except.ok.inj hsame
      exact hhistory
  · rintro failure world _ ⟨_, hsame, _⟩
    cases hsame

theorem meets_takeCommand :
    bookkeeping.Meets number Notifications.takeCommand.outcome (Fresh number) (Ended number) := by
  unfold Notifications.takeCommand
  refine Protocol.meets_outcome_atomically (Protocol.stable_history (· = [])) ?_
  intro world hkeeping hfresh _
  have hhistory : world.history number = [] := hfresh
  obtain ⟨hless, hbound, hissued, hhandlers⟩ := taken_takeCommand hkeeping.taken
  refine ⟨⟨trivial, hkeeping.idle ?_ hhandlers drained_takeCommand (fun _ ↦ rfl) ?_ rfl⟩, by simp, ?_⟩
  · exact hkeeping.toTicketed.step (.inl ⟨rfl, congrArg List.length hissued⟩) (by rintro _ ⟨⟩) hless
      hbound
  · rintro _ _ ⟨⟩
  · simp [Settled, hhistory, NotificationStep.issues]

end Calls

/-- Every call keeps the protocol, and has awaited what it has issued when it ends. -/
theorem meets_pubSub (request : PubSubRequest) (number : ℕ) :
    bookkeeping.Meets number request.serve (Fresh number) (Ended number) := by
  cases request with
  | subscribe channel handler => exact meets_subscribe
  | unsubscribe channel handler => exact meets_unsubscribe
  | takeCommand => exact meets_takeCommand

/-! ### The result -/

/-- The invariant holds before the first call. -/
theorem bookkeeping_initial (db : Db) : Bookkeeping ⟨db.cleared, []⟩ where
  issuer := by simp
  issued := by simp
  recorded := by simp [Db.cleared]
  awaited := by simp
  taken := Nat.le_refl _
  waiting channel hwaiting := by
    obtain ⟨_, hentry, _⟩ := hwaiting
    cases hentry
  empty channel hnil := by cases hnil
  drained channel := rfl
  outstanding channel handler := False.elim

section Runs

variable {db : Db} {config : PubSubConfig}

/-- When no call is pending, each ticket that was issued has been awaited. -/
theorem Quiescent.awaited (hkept : bookkeeping.Kept Ended config) (hquiescent : Quiescent config)
    {entry : ℕ × NotificationStep} (hentry : entry ∈ config.log) {ticket : ℕ}
    (hissues : entry.2.issues = some ticket) :
    ∃ step ∈ config.history entry.1, step.awaited = some ticket := by
  have hlength := hkept.started entry hentry
  obtain ⟨value, hvalue⟩ := Option.ne_none_iff_exists'.mp
    (hquiescent _ (List.getElem_mem hlength))
  have hended := hkept.returned
    (List.getElem?_eq_some_iff.mpr ⟨hlength, Call.returned_eq_some.mp hvalue⟩)
  exact hended.2 entry.2 (mem_history.mpr hentry) ticket hissues

/-- When no call is pending, no subscribe waits. -/
theorem Quiescent.not_waiting (hkept : bookkeeping.Kept Ended config)
    (hquiescent : Quiescent config) (channel : Channel) : ¬ Waiting config.log channel := by
  rintro ⟨entry, hentry, ticket, hticket, hothers⟩
  obtain ⟨step, hstep, hawaited⟩ := hquiescent.awaited hkept hentry (issues_of_subscribes hticket)
  exact hothers _ (mem_history.mp hstep) hawaited

/-- When no call is pending, Valkey has taken all commands. -/
theorem Quiescent.subscribed_eq (hkept : bookkeeping.Kept Ended config)
    (hquiescent : Quiescent config) : config.db.pubSub.subscribed = config.db.pubSub.drained := by
  have hall : config.db.pubSub.issued.length ≤ config.db.pubSub.taken := by
    by_contra hless
    obtain ⟨entry, hentry, hissues⟩ := hkept.invariant.recorded config.db.pubSub.taken (by omega)
    obtain ⟨step, hstep, hawaited⟩ := hquiescent.awaited hkept hentry hissues
    have htaken := (hkept.invariant.awaited _ (mem_history.mp hstep) _ hawaited).1
    omega
  rw [PubSub.drained, List.drop_eq_nil_of_le hall, List.foldl_nil]

/-- In every run in which a call resumes once its command has been taken, and no unsubscribe leaves the
set of a channel empty while a subscribe of that channel waits, the bookkeeping is right. -/
theorem reachable_bookkept
    (hreach : Reachable PubSubRequest.serve
      (fun world step ↦ CommandTaken world step ∧ SparesWaiting world step) db.cleared config) :
    Bookkept config := by
  have hkept : bookkeeping.Kept Ended config :=
    Protocol.reachable_kept (fun _ result ↦ stable_ended result)
      (fun request number ↦ meets_pubSub request number) (bookkeeping_initial db) hreach
  refine ⟨fun call hcall hcrash ↦ ?_, fun hquiescent channel ↦ ?_, fun _ channel handler ↦ ?_⟩
  · obtain ⟨number, hnumber⟩ := List.mem_iff_getElem?.mp hcall
    rw [Call.returned_eq_some.mp hcrash] at hnumber
    exact (hkept.returned hnumber).1 rfl
  · rw [hquiescent.subscribed_eq hkept, hkept.invariant.drained channel]
    cases hset : config.db.pubSub.handlers channel with
    | none => simp [PubSub.Registered, hset]
    | some set =>
      have hnonempty : set ≠ [] := by
        rintro rfl
        exact hquiescent.not_waiting hkept channel (hkept.invariant.empty channel hset)
      simpa [PubSub.Registered, hset] using List.exists_mem_of_ne_nil set hnonempty
  · exact hkept.invariant.outstanding channel handler

end Runs

/-! ### Concrete runs -/

instance {world : World Db NotificationStep} {step : NotificationStep} :
    Decidable (CommandTaken world step) :=
  inferInstanceAs (Decidable (∀ ticket ∈ step.awaited, ticket < world.db.pubSub.taken))

instance {log : PubSubLog} {channel : Channel} : Decidable (Waiting log channel) :=
  inferInstanceAs (Decidable (∃ entry ∈ log, ∃ ticket ∈ entry.2.subscribes channel,
    ∀ other ∈ log, other.2.awaited ≠ some ticket))

instance {world : World Db NotificationStep} {step : NotificationStep} :
    Decidable (SparesWaiting world step) :=
  inferInstanceAs (Decidable (∀ target ∈ step.unsubscribes,
    (world.db.pubSub.handlers target.1).map (deleteHandler target.2) = some [] →
      ¬ Waiting world.log target.1))

/-- A second stream of a channel comes while the first awaits its command, and stays when the first has
gone; a third one, of another channel, comes and goes. -/
def overlapping : List (Choice PubSubRequest) :=
  [.start (.subscribe "user:7" 0), .resume 0, .start (.subscribe "user:7" 1), .resume 1,
    .start (.subscribe "user:8" 2), .resume 2, .start .takeCommand, .resume 3, .resume 0,
    .start (.unsubscribe "user:7" 0), .resume 4, .start .takeCommand, .resume 5, .resume 2,
    .start (.unsubscribe "user:8" 2), .resume 6, .start .takeCommand, .resume 7, .resume 6]

/-- The configuration that follows. -/
def overlapped : PubSubConfig :=
  (Config.initial quietDb.cleared).play PubSubRequest.serve overlapping

/-- A witness: all calls have returned, and the second stream is the only one left. -/
theorem reachable_bookkept_witness :
    Bookkept overlapped ∧ (∀ call ∈ overlapped.calls, call.returned ≠ none) ∧
      overlapped.db.pubSub.handlers "user:7" = some [1] ∧
        overlapped.db.pubSub.subscribed "user:7" = true ∧
          overlapped.db.pubSub.subscribed "user:8" = false :=
  ⟨reachable_bookkept (play_reachable (by decide +kernel)), by decide +kernel, by decide +kernel,
    by decide +kernel, by decide +kernel⟩

/-- A second subscriber of the channel comes and goes while the first awaits its command. -/
def lostSet : List (Choice PubSubRequest) :=
  [.start (.subscribe "user:7" 0), .resume 0, .start (.subscribe "user:7" 1), .resume 1,
    .start (.unsubscribe "user:7" 1), .resume 2, .start .takeCommand, .resume 3, .resume 0]

/-- The first subscriber resumes and finds no set. -/
theorem lostSet_crashes :
    ¬ ∀ config : PubSubConfig,
      Reachable PubSubRequest.serve CommandTaken quietDb.cleared config → Bookkept config := by
  intro halways
  have hreach : Reachable PubSubRequest.serve CommandTaken quietDb.cleared
      ((Config.initial quietDb.cleared).play PubSubRequest.serve lostSet) :=
    play_reachable (by decide +kernel)
  refine (halways _ hreach).noCrash (.done (.ok (.error .typeError))) ?_ rfl
  exact List.mem_iff_getElem?.mpr ⟨0, rfl⟩

end RallyApi.Notifications
