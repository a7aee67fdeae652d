import Mathlib.Data.List.Forall2
import RallyApi.Concurrency.Interleaving
import RallyApi.Concurrency.Part

/-!
# A system inside a larger one

The calls of a system may run on a part of a larger store, where other calls run beside them, and a step
may have an effect on the rest of the store as well, told by its label (`Call.embedded`). Seen on its part
alone, a run of the larger system is one of the smaller system (`reachable_mirrored`): whatever is known of
all its runs is known of the larger one.
-/

set_option autoImplicit false
set_option relaxedAutoImplicit false

namespace RallyApi.Concurrency

variable {Db Sub Label SubLabel Failure SubFailure α β : Type}

/-! ### Calls -/

namespace Call

/-- The call, on a part of a larger store. By its label, a step has an effect on the rest. -/
def embedded (part : Part Db Sub) (relabel : SubLabel → Label) (effect : SubLabel → Db → Db) :
    Call Sub SubLabel Failure α → Call Db Label Failure α
  | done outcome => done outcome
  | step label act next =>
    step (fun db ↦ relabel (label (part.get db)))
      (fun db ↦ effect (label (part.get db)) (part.put (act (part.get db)) db))
      fun db ↦ (next (part.get db)).embedded part relabel effect

variable {part : Part Db Sub} {relabel : SubLabel → Label} {effect : SubLabel → Db → Db}

/-- What bounds the steps of the call bounds them in the larger store, up to their effect. -/
theorem Only.embedded {relation : Sub → SubLabel → Sub → Prop} {wider : Db → Label → Db → Prop}
    {call : Call Sub SubLabel Failure α} (hcall : call.Only relation)
    (hwider : ∀ db label after, relation (part.get db) label after →
      wider db (relabel label) (effect label (part.put after db))) :
    (call.embedded part relabel effect).Only wider := by
  induction call with
  | done outcome => trivial
  | step label act next ih =>
    intro db
    obtain ⟨hstep, hnext⟩ := hcall (part.get db)
    exact ⟨hwider db _ _ hstep, ih _ hnext⟩

end Call

/-- A call of the larger system and one of the smaller: step by step they do the same to the part, or the
steps of the first leave the part alone and the second has not begun. Assumes: `unlabel` tells the steps
that are of the smaller system. -/
inductive Mirrors (part : Part Db Sub) (unlabel : Label → Option SubLabel) :
    Call Db Label Failure α → Call Sub SubLabel SubFailure β → Prop
  | beside (call : Call Db Label Failure α) (mirror : Call Sub SubLabel SubFailure β)
      (hcall : call.Only fun db label after ↦ unlabel label = none ∧ part.get after = part.get db) :
      Mirrors part unlabel call mirror
  | step (label : Db → Label) (act : Db → Db) (next : Db → Call Db Label Failure α)
      (mirrorLabel : Sub → SubLabel) (mirrorAct : Sub → Sub)
      (mirrorNext : Sub → Call Sub SubLabel SubFailure β)
      (hlabel : ∀ db, unlabel (label db) = some (mirrorLabel (part.get db)))
      (hact : ∀ db, part.get (act db) = mirrorAct (part.get db))
      (hnext : ∀ db, Mirrors part unlabel (next db) (mirrorNext (part.get db))) :
      Mirrors part unlabel (.step label act next) (.step mirrorLabel mirrorAct mirrorNext)

section Mirrors

variable {part : Part Db Sub} {relabel : SubLabel → Label} {effect : SubLabel → Db → Db}
  {unlabel : Label → Option SubLabel}

/-- Assumes: the labels of the smaller system are told, and what a step leaves of the part is read back as
it was put. -/
theorem mirrors_embedded (hlabel : ∀ label, unlabel (relabel label) = some label)
    (hget : ∀ label sub db, part.get (effect label (part.put sub db)) = sub)
    (call : Call Sub SubLabel Failure α) :
    Mirrors part unlabel (call.embedded part relabel effect) call := by
  induction call with
  | done outcome => exact .beside _ _ trivial
  | step label act next ih =>
    exact .step _ _ _ label act next (fun _ ↦ hlabel _) (fun _ ↦ hget _ _ _) fun db ↦ ih _

/-- Mapping the result of a call adds no step. -/
theorem Mirrors.map {γ : Type} {f : α → γ} {call : Call Db Label Failure α}
    {mirror : Call Sub SubLabel SubFailure β} (hmirrors : Mirrors part unlabel call mirror) :
    Mirrors part unlabel (f <$> call) mirror := by
  induction hmirrors with
  | beside call mirror hcall => exact .beside _ _ (Call.only_map hcall)
  | step label act next mirrorLabel mirrorAct mirrorNext hlabel hact _ ih =>
    exact .step _ _ _ mirrorLabel mirrorAct mirrorNext hlabel hact ih

/-! ### Runs -/

/-- The steps of the smaller system in a history. -/
def unlabelled (unlabel : Label → Option SubLabel) (log : List (ℕ × Label)) : List (ℕ × SubLabel) :=
  log.filterMap fun entry ↦ (unlabel entry.2).map fun label ↦ (entry.1, label)

theorem mem_unlabelled {log : List (ℕ × Label)} {number : ℕ} {subLabel : SubLabel}
    (hmem : (number, subLabel) ∈ unlabelled unlabel log) :
    ∃ label, unlabel label = some subLabel ∧ (number, label) ∈ log := by
  obtain ⟨⟨other, label⟩, hentry, hlabel⟩ := List.mem_filterMap.mp hmem
  obtain ⟨told, htold, hsame⟩ := Option.map_eq_some_iff.mp hlabel
  obtain ⟨rfl, rfl⟩ := Prod.mk.inj hsame
  exact ⟨label, htold, hentry⟩

/-- Replacing the elements at one place by related ones. -/
theorem forall₂_set {First Second : Type} {related : First → Second → Prop} {firsts : List First}
    {seconds : List Second} (hlists : List.Forall₂ related firsts seconds) {first : First}
    {second : Second} (hnew : related first second) (place : ℕ) :
    List.Forall₂ related (firsts.set place first) (seconds.set place second) := by
  induction hlists generalizing place with
  | nil => exact .nil
  | cons hhead htail ih =>
    cases place with
    | zero => exact .cons hnew htail
    | succ place => exact .cons hhead (ih place)

/-- A configuration of the larger system and one of the smaller. -/
structure Mirrored (part : Part Db Sub) (unlabel : Label → Option SubLabel)
    (config : Config Db Label Failure α) (mirror : Config Sub SubLabel SubFailure β) : Prop where
  db : mirror.db = part.get config.db
  log : mirror.log = unlabelled unlabel config.log
  calls : List.Forall₂ (Mirrors part unlabel) config.calls mirror.calls

variable {Request SubRequest : Type} {serve : Request → Call Db Label Failure α}
  {subServe : SubRequest → Call Sub SubLabel SubFailure β} {permits : World Db Label → Label → Prop}
  {config after : Config Db Label Failure α} {mirror : Config Sub SubLabel SubFailure β}

/-- A step of the larger system is none of the smaller, or one of its steps. Assumes: every request is
mirrored. -/
theorem Mirrored.step (hserve : ∀ request, ∃ subRequest,
      Mirrors part unlabel (serve request) (subServe subRequest))
    (hmirrored : Mirrored part unlabel config mirror) (hstep : Step serve permits config after) :
    ∃ next, (next = mirror ∨ Step subServe anyStep mirror next) ∧ Mirrored part unlabel after next := by
  cases hstep with
  | start request =>
    obtain ⟨subRequest, hmirrors⟩ := hserve request
    exact ⟨_, .inr (.start mirror subRequest), hmirrored.db, hmirrored.log,
      List.rel_append hmirrored.calls (.cons hmirrors .nil)⟩
  | resume number label act next hcall _ =>
    have hnumber := (List.getElem?_eq_some_iff.mp hcall).1
    have hlength : number < mirror.calls.length := hmirrored.calls.length_eq ▸ hnumber
    have hmirror : mirror.calls[number]? = some mirror.calls[number] := List.getElem?_eq_getElem hlength
    have hsame : mirror.calls.set number mirror.calls[number] = mirror.calls := List.set_getElem_self hlength
    have hmirrors := hmirrored.calls.get hnumber hlength
    rw [List.get_eq_getElem, List.get_eq_getElem,
      (List.getElem?_eq_some_iff.mp hcall).2] at hmirrors
    generalize mirror.calls[number] = call at hmirrors hmirror hsame
    cases hmirrors with
    | beside _ _ hcall =>
      obtain ⟨⟨hnone, hget⟩, hnext⟩ := hcall config.db
      refine ⟨mirror, .inl rfl, hmirrored.db.trans hget.symm, ?_, ?_⟩
      · simp only [World.after, unlabelled, List.filterMap_cons, hnone, Option.map_none]
        exact hmirrored.log
      · rw [← hsame]
        exact forall₂_set hmirrored.calls (.beside _ _ hnext) number
    | step _ _ _ mirrorLabel mirrorAct mirrorNext hlabel hact hnext =>
      refine ⟨_, .inr (.resume mirror number mirrorLabel mirrorAct mirrorNext hmirror trivial), ?_, ?_, ?_⟩
      · exact (congrArg mirrorAct hmirrored.db).trans (hact config.db).symm
      · simp only [World.after, unlabelled, List.filterMap_cons, hlabel, Option.map_some, hmirrored.db,
          hmirrored.log]
      · rw [hmirrored.db]
        exact forall₂_set hmirrored.calls (hnext config.db) number

/-- Assumes: every request of the larger system is mirrored by one of the smaller. Seen on its part, a run
of the larger system is one of the smaller. -/
theorem reachable_mirrored (hserve : ∀ request, ∃ subRequest,
      Mirrors part unlabel (serve request) (subServe subRequest)) {db : Db}
    (hreach : Reachable serve permits db config) :
    ∃ mirror, Reachable subServe anyStep (part.get db) mirror ∧ Mirrored part unlabel config mirror := by
  induction hreach with
  | refl => exact ⟨_, .refl, rfl, rfl, .nil⟩
  | tail _ hstep ih =>
    obtain ⟨mirror, hmirror, hmirrored⟩ := ih
    obtain ⟨next, hnext, hafter⟩ := hmirrored.step hserve hstep
    rcases hnext with rfl | hnext
    · exact ⟨next, hmirror, hafter⟩
    · exact ⟨next, hmirror.tail hnext, hafter⟩

end Mirrors

end RallyApi.Concurrency
