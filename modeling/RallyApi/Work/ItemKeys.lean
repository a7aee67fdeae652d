import Mathlib.Data.List.Basic
import RallyApi.Concurrency.RelyGuarantee
import RallyApi.Platform.Digits
import RallyApi.Work.Effects

/-!
# Unique item keys

An item key is the key of its project and a number from the counter of the project. The number is
drawn in a step of its own, before the transaction that inserts the item, and a project key may be
taken again once its project is deleted.

`reachable_uniqueItemKeys` proves, for every interleaving of the calls of the work services, that two
items of one project, or of two projects of a tenant that are not deleted, have different keys, and
that the numbers of a project are handed out in increasing order. The proof does not use the unique
index on item keys: a call that has drawn a number holds its key in reserve (`Reserved`) until it
inserts the item, and no other call can take it.
-/

set_option autoImplicit false
set_option relaxedAutoImplicit false

namespace RallyApi.Work

open Concurrency Platform Store

/-! ### Keys -/

/-- No letter or digit becomes a dash in upper case. -/
theorem toUpper_ne_dash {char : Char} (hchar : char.isAlphanum = true) : char.toUpper ≠ '-' := by
  intro hdash
  have hval : char.toUpper.val = 45 := by rw [hdash]; rfl
  change ((decide (65 ≤ char.val ∧ char.val ≤ 90) ||
    (decide (97 ≤ char.val) && decide (char.val ≤ 122))) ||
    (decide (48 ≤ char.val) && decide (char.val ≤ 57))) = true at hchar
  simp only [Bool.or_eq_true, Bool.and_eq_true, decide_eq_true_eq, UInt32.le_iff_toNat_le] at hchar
  change ((65 ≤ char.val.toNat ∧ char.val.toNat ≤ 90) ∨
    97 ≤ char.val.toNat ∧ char.val.toNat ≤ 122) ∨
    48 ≤ char.val.toNat ∧ char.val.toNat ≤ 57 at hchar
  unfold Char.toUpper at hval
  split_ifs at hval with hlower
  · obtain ⟨hlow, hhigh⟩ := hlower
    rw [UInt32.le_iff_toNat_le] at hlow hhigh
    change 97 ≤ char.val.toNat at hlow
    change char.val.toNat ≤ 122 at hhigh
    have hsum := congrArg UInt32.toNat hval
    change (char.val + 4294967264).toNat = 45 at hsum
    rw [UInt32.toNat_add] at hsum
    change (char.val.toNat + 4294967264) % 4294967296 = 45 at hsum
    omega
  · have hdigit : char.val.toNat = 45 := by rw [hval]; rfl
    omega

/-- Trimming only removes characters. -/
theorem mem_of_mem_trimChars {char : Char} {chars : List Char} (hchar : char ∈ trimChars chars) :
    char ∈ chars := by
  rw [trimChars, List.mem_reverse] at hchar
  have hkept := (List.dropWhile_sublist _).mem hchar
  exact (List.dropWhile_sublist _).mem (List.mem_reverse.mp hkept)

/-- A valid key is alphanumeric. -/
theorem isAlphanum_of_validKey {key : String} (hkey : validKey key = true) :
    ∀ char ∈ key.toList, char.isAlphanum = true := by
  unfold validKey at hkey
  split at hkey
  · simp at hkey
  next first rest hchars =>
    simp only [Bool.and_eq_true, List.all_eq_true] at hkey
    obtain ⟨⟨⟨hfirst, hrest⟩, _⟩, _⟩ := hkey
    rw [hchars]
    intro char hchar
    rcases List.mem_cons.mp hchar with rfl | hmem
    · simp [Char.isAlphanum, hfirst]
    · exact hrest char hmem

/-- The stored form of a valid key has no dash. -/
theorem dash_notMem_normalizeKey {key : String} (hkey : validKey key = true) :
    '-' ∉ (normalizeKey key).toList := by
  rw [normalizeKey, String.toList_ofList]
  intro hdash
  obtain ⟨char, hchar, hupper⟩ := List.mem_map.mp (mem_of_mem_trimChars hdash)
  exact toUpper_ne_dash (isAlphanum_of_validKey hkey char hchar) hupper

/-- An item key determines the project key, which has no dash, and the number. -/
theorem itemKeyOf_inj {first second : String} {firstSeq secondSeq : ℕ}
    (hfirst : '-' ∉ first.toList)
    (hsame : itemKeyOf first firstSeq = itemKeyOf second secondSeq) :
    first = second ∧ firstSeq = secondSeq := by
  have hchars := congrArg String.toList hsame
  simp only [itemKeyOf, Nat.toString_eq_repr, String.toList_append, Nat.toList_repr,
    List.append_assoc] at hchars
  obtain ⟨hkey, _, hseq⟩ :=
    (List.append_cons_inj_of_notMem hfirst (notMem_toDigits (by decide) firstSeq)).mp hchars
  exact ⟨String.toList_injective hkey, toDigits_injective hseq⟩

/-! ### The property -/

/-- The call and the number of a step that draws a number for a project. -/
def drawFor (projectId : Uuid) : ℕ × WorkStep → Option (ℕ × ℕ)
  | (number, .incrementCounter id seq) => if id = projectId then some (number, seq) else none
  | _ => none

/-- The numbers drawn for a project, each with the call that drew it, most recent first. -/
def draws (projectId : Uuid) (log : List (ℕ × WorkStep)) : List (ℕ × ℕ) :=
  log.filterMap (drawFor projectId)

/-- Two items of one project, or of two projects of one tenant that are not deleted. -/
def KeysMustDiffer (projects : List Project) (first second : WorkItem) : Prop :=
  first.projectId = second.projectId ∨
    ∃ firstProject ∈ projects, ∃ secondProject ∈ projects,
      firstProject.id = first.projectId ∧ secondProject.id = second.projectId ∧
        firstProject.deletedAt = none ∧ secondProject.deletedAt = none ∧
          firstProject.tenantId = secondProject.tenantId

/-- Item keys are unique, and the numbers of a project increase with time. -/
structure UniqueItemKeys (world : World Db WorkStep) : Prop where
  keys : world.db.workItems.Pairwise fun first second ↦
    KeysMustDiffer world.db.projects first second → first.itemKey ≠ second.itemKey
  numbers : ∀ projectId, ((draws projectId world.log).map Prod.snd).Pairwise (· > ·)

/-! ### The invariant -/

/-- The identifier and the key of a project, which never change. -/
def Project.named (project : Project) : Uuid × String := (project.id, project.key)

/-- The project and the key of an item, which never change. -/
def WorkItem.keyed (item : WorkItem) : Uuid × String := (item.projectId, item.itemKey)

/-- Project keys have no dash, and the projects of a tenant that are not deleted have different
keys. -/
structure ProjectsInOrder (projects : List Project) : Prop where
  ids : (projects.map Project.id).Nodup
  dashless : ∀ project ∈ projects, '-' ∉ project.key.toList
  liveKeys : ∀ first ∈ projects, ∀ second ∈ projects, first.deletedAt = none →
    second.occupies first.tenantId first.key = true → first.id = second.id

/-- Every counter belongs to a project and is at or above the numbers drawn for it, which
increase. -/
structure CountersInOrder (world : World Db WorkStep) : Prop where
  ids : (world.db.projectCounters.map ProjectCounter.projectId).Nodup
  counted : ∀ counter ∈ world.db.projectCounters,
    counter.projectId ∈ world.db.projects.map Project.id
  bounded : ∀ projectId, ∀ draw ∈ draws projectId world.log,
    ∃ counter ∈ world.db.projectCounters,
      counter.projectId = projectId ∧ draw.2 ≤ counter.lastItemNumber
  numbers : ∀ projectId, ((draws projectId world.log).map Prod.snd).Pairwise (· > ·)

/-- Call `number` has drawn the number of an item key, and the rest of the key is the key of the
project. -/
def DrawnBy (number : ℕ) (keyed : Uuid × String) (world : World Db WorkStep) : Prop :=
  ∃ key seq, (keyed.1, key) ∈ world.db.projects.map Project.named ∧
    (number, seq) ∈ draws keyed.1 world.log ∧ keyed.2 = itemKeyOf key seq

/-- The invariant that makes `UniqueItemKeys` inductive: the number of every item key was drawn. -/
structure KeysInOrder (world : World Db WorkStep) : Prop where
  projects : ProjectsInOrder world.db.projects
  counters : CountersInOrder world
  drawn : ∀ keyed ∈ world.db.workItems.map WorkItem.keyed, ∃ number, DrawnBy number keyed world
  keys : (world.db.workItems.map WorkItem.keyed).Nodup

/-- Call `number` has drawn the number of an item key, and no item has the key yet. -/
structure Reserved (number : ℕ) (keyed : Uuid × String) (world : World Db WorkStep) : Prop where
  drawn : DrawnBy number keyed world
  unused : keyed ∉ world.db.workItems.map WorkItem.keyed

/-- What the calls promise each other: a step does what its label says; a new project has a key
without a dash; and a new item has a key that its call holds in reserve. -/
structure KeepsKeys (number : ℕ) (world : World Db WorkStep) (label : WorkStep) (after : Db) :
    Prop where
  effect : Effect world.db label after
  dashless : ∀ project, label = .createProject project → '-' ∉ project.key.toList
  reserved : ∀ item, label = .createWorkItem item → Reserved number item.keyed world

/-- The protocol of the calls with respect to item keys. It permits every step. -/
def keyProtocol : Protocol Db WorkStep where
  permits := anyStep
  invariant := KeysInOrder
  guarantee := KeepsKeys

/-- A project key has no dash. -/
theorem ProjectsInOrder.dashless_of_named {projects : List Project} (horder : ProjectsInOrder projects)
    {id : Uuid} {key : String} (hnamed : (id, key) ∈ projects.map Project.named) :
    '-' ∉ key.toList := by
  obtain ⟨project, hproject, hpair⟩ := List.mem_map.mp hnamed
  rw [← (Prod.mk.inj hpair).2]
  exact horder.dashless project hproject

/-- A project has one key. -/
theorem ProjectsInOrder.key_eq {projects : List Project} (horder : ProjectsInOrder projects)
    {project : Project} (hproject : project ∈ projects) {id : Uuid} {key : String}
    (hid : project.id = id) (hnamed : (id, key) ∈ projects.map Project.named) :
    project.key = key := by
  obtain ⟨row, hrow, hpair⟩ := List.mem_map.mp hnamed
  obtain ⟨hrowId, hkey⟩ := Prod.mk.inj hpair
  rw [← hkey, List.inj_on_of_nodup_map horder.ids hrow hproject (hrowId.trans hid.symm)]

/-! ### What a step preserves -/

variable {world : World Db WorkStep} {number other : ℕ} {label : WorkStep} {after : Db}

theorem draws_after (projectId : Uuid) :
    draws projectId (world.after number label after).log =
      (drawFor projectId (number, label)).toList ++ draws projectId world.log := by
  rw [draws, World.after, List.filterMap_cons]
  cases drawFor projectId (number, label) <;> rfl

/-- The projects after a step: those of before, and the new one. -/
theorem named_after (heffect : Effect world.db label after) :
    world.db.projects.map Project.named ⊆ after.projects.map Project.named := by
  by_cases hwrites : .projects ∈ label.writes
  · cases label <;> simp only [WorkStep.writes, List.mem_cons, List.not_mem_nil, reduceCtorEq,
      or_self, or_false] at hwrites
    case createProject project =>
      obtain ⟨_, _, _, _, _, rfl⟩ := heffect
      rw [List.map_append]
      exact List.subset_append_left _ _
    case deleteProject id =>
      obtain rfl := heffect
      have hnames : (world.db.deleteProject id).projects.map Project.named =
          world.db.projects.map Project.named := map_updateWhere fun _ ↦ rfl
      rw [hnames]
      exact List.Subset.refl _
  · rw [heffect.frame.projects hwrites]
    exact List.Subset.refl _

/-- The key a step gives to a new item, if it creates one. -/
def createdKey : WorkStep → Option (Uuid × String)
  | .createWorkItem item => some item.keyed
  | _ => none

/-- The item keys after a step: those of before, and the one of the new item. -/
theorem keyed_after (heffect : Effect world.db label after) :
    after.workItems.map WorkItem.keyed =
      world.db.workItems.map WorkItem.keyed ++ (createdKey label).toList := by
  by_cases hwrites : .workItems ∈ label.writes
  · cases label <;> simp only [WorkStep.writes, List.mem_cons, List.not_mem_nil, reduceCtorEq,
      or_self, or_false] at hwrites
    case createWorkItem item =>
      obtain ⟨_, _, _, _, rfl⟩ := heffect
      rw [List.map_append]
      rfl
    case updateWorkItem snapshot input =>
      obtain ⟨_, _, hcommit⟩ := heffect
      obtain ⟨_, _, rfl, _⟩ := commitUpdate_ok hcommit
      refine Eq.trans ?_ (List.append_nil _).symm
      exact map_updateWhere fun _ ↦ rfl
    case deleteWorkItem id =>
      obtain rfl := heffect
      refine Eq.trans ?_ (List.append_nil _).symm
      exact map_updateWhere fun _ ↦ rfl
    case carryOver id target =>
      obtain ⟨_, _, rfl⟩ := heffect
      refine Eq.trans ?_ (List.append_nil _).symm
      exact map_updateWhere fun _ ↦ rfl
  · rw [heffect.frame.workItems hwrites]
    cases label with
    | createWorkItem item => exact absurd List.mem_cons_self hwrites
    | _ => exact (List.append_nil _).symm

/-- A number stays drawn. -/
theorem DrawnBy.step {keyed : Uuid × String} (hdrawn : DrawnBy number keyed world)
    (heffect : Effect world.db label after) :
    DrawnBy number keyed (world.after other label after) := by
  obtain ⟨key, seq, hnamed, hdraw, hkey⟩ := hdrawn
  refine ⟨key, seq, named_after heffect hnamed, ?_, hkey⟩
  rw [draws_after]
  exact List.mem_append_right _ hdraw

/-- The number of a key was drawn by one call only. -/
theorem KeysInOrder.drawnBy_unique (horder : KeysInOrder world) {keyed : Uuid × String}
    (hfirst : DrawnBy number keyed world) (hsecond : DrawnBy other keyed world) :
    number = other := by
  obtain ⟨firstKey, firstSeq, hnamed, hfirstDraw, hfirstKey⟩ := hfirst
  obtain ⟨secondKey, secondSeq, _, hsecondDraw, hsecondKey⟩ := hsecond
  obtain ⟨_, hseq⟩ := itemKeyOf_inj (horder.projects.dashless_of_named hnamed)
    (hfirstKey.symm.trans hsecondKey)
  have hnodup : ((draws keyed.1 world.log).map Prod.snd).Nodup :=
    (horder.counters.numbers keyed.1).imp fun hlater ↦ hlater.ne'
  have hsame := List.inj_on_of_nodup_map hnodup hfirstDraw hsecondDraw hseq
  exact (Prod.mk.inj hsame).1

/-- A step keeps the order of the projects when a new project has a key without a dash. -/
theorem ProjectsInOrder.step (horder : ProjectsInOrder world.db.projects)
    (heffect : Effect world.db label after)
    (hdashless : ∀ project, label = .createProject project → '-' ∉ project.key.toList) :
    ProjectsInOrder after.projects := by
  by_cases hwrites : .projects ∈ label.writes
  · cases label <;> simp only [WorkStep.writes, List.mem_cons, List.not_mem_nil, reduceCtorEq,
      or_self, or_false] at hwrites
    case createProject project =>
      obtain ⟨hfresh, hlive, hfree, _, _, rfl⟩ := heffect
      refine ⟨nodup_map_append_singleton horder.ids hfresh, ?_, ?_⟩
      · intro row hrow
        rcases List.mem_append.mp hrow with hold | hnew
        · exact horder.dashless row hold
        · exact List.mem_singleton.mp hnew ▸ hdashless project rfl
      · intro first hfirst second hsecond hfirstLive hsame
        rcases List.mem_append.mp hfirst with holdFirst | hnewFirst <;>
          rcases List.mem_append.mp hsecond with holdSecond | hnewSecond
        · exact horder.liveKeys first holdFirst second holdSecond hfirstLive hsame
        · rw [List.mem_singleton.mp hnewSecond] at hsame
          obtain ⟨htenant, hkey, _⟩ := of_decide_eq_true hsame
          refine absurd ?_ (Bool.eq_false_iff.mp (hfree first holdFirst))
          exact decide_eq_true ⟨htenant.symm, hkey.symm, hfirstLive⟩
        · rw [List.mem_singleton.mp hnewFirst] at hsame
          exact absurd hsame (Bool.eq_false_iff.mp (hfree second holdSecond))
        · rw [List.mem_singleton.mp hnewFirst, List.mem_singleton.mp hnewSecond]
    case deleteProject id =>
      obtain rfl := heffect
      refine ⟨nodup_map_updateWhere (fun _ ↦ rfl) horder.ids, ?_, ?_⟩
      · intro row hrow
        obtain ⟨old, hold, rfl⟩ := mem_updateWhere.mp hrow
        split_ifs <;> exact horder.dashless old hold
      · intro first hfirst second hsecond hfirstLive hsame
        obtain ⟨oldFirst, holdFirst, rfl⟩ := mem_updateWhere.mp hfirst
        obtain ⟨oldSecond, holdSecond, rfl⟩ := mem_updateWhere.mp hsecond
        split_ifs at hfirstLive hsame ⊢
        · simp [Project.occupies] at hsame
        · exact horder.liveKeys oldFirst holdFirst oldSecond holdSecond hfirstLive hsame
  · rw [heffect.frame.projects hwrites]
    exact horder

/-- The identifiers of projects stay. -/
theorem projectIds_after (heffect : Effect world.db label after) :
    world.db.projects.map Project.id ⊆ after.projects.map Project.id := by
  have hids := List.map_subset Prod.fst (named_after heffect)
  rw [List.map_map, List.map_map] at hids
  exact hids

/-- A step that does not increment a counter draws no number. -/
theorem draws_after_of_ne (hlabel : ∀ id seq, label ≠ .incrementCounter id seq) (projectId : Uuid) :
    draws projectId (world.after number label after).log = draws projectId world.log := by
  rw [draws_after]
  cases label with
  | incrementCounter id seq => exact absurd rfl (hlabel id seq)
  | _ => rfl

/-- An increment adds one to the counters of the project and leaves the others alone. -/
theorem exists_incremented {db : Db} {counter : ProjectCounter}
    (hcounter : counter ∈ db.projectCounters) (projectId : Uuid) :
    ∃ grown ∈ (db.incrementCounter projectId).projectCounters,
      grown.projectId = counter.projectId ∧
        grown.lastItemNumber =
          if counter.projectId = projectId then counter.lastItemNumber + 1
          else counter.lastItemNumber := by
  refine ⟨_, mem_updateWhere.mpr ⟨counter, hcounter, rfl⟩, ?_⟩
  by_cases hsame : counter.projectId = projectId <;> simp [hsame]

/-- An increment keeps the order of the counters. -/
theorem CountersInOrder.increment (horder : CountersInOrder world) {projectId : Uuid}
    {counter : ProjectCounter} (hcounter : counter ∈ world.db.projectCounters)
    (hproject : counter.projectId = projectId) :
    CountersInOrder (world.after number (.incrementCounter projectId (counter.lastItemNumber + 1))
      (world.db.incrementCounter projectId)) where
  ids := nodup_map_updateWhere (fun _ ↦ rfl) horder.ids
  counted row hrow := by
    obtain ⟨old, hold, rfl⟩ := mem_updateWhere.mp hrow
    split_ifs <;> exact horder.counted old hold
  bounded id draw hdraw := by
    rw [draws_after, List.mem_append] at hdraw
    rcases hdraw with hnew | hold
    · rw [Option.mem_toList, drawFor] at hnew
      split_ifs at hnew with hid
      obtain rfl := Option.some.inj hnew
      obtain ⟨grown, hgrown, hgrownId, hnumber⟩ := exists_incremented hcounter projectId
      rw [if_pos hproject] at hnumber
      exact ⟨grown, hgrown, (hgrownId.trans hproject).trans hid, hnumber.ge⟩
    · obtain ⟨row, hrow, hrowId, hbound⟩ := horder.bounded id draw hold
      obtain ⟨grown, hgrown, hgrownId, hnumber⟩ := exists_incremented hrow projectId
      refine ⟨grown, hgrown, hgrownId.trans hrowId, hbound.trans ?_⟩
      rw [hnumber]
      split_ifs <;> omega
  numbers id := by
    rw [draws_after, drawFor]
    split_ifs with hid
    · refine List.pairwise_cons.mpr ⟨fun seq hseq ↦ ?_, horder.numbers id⟩
      obtain ⟨draw, hdraw, rfl⟩ := List.mem_map.mp hseq
      obtain ⟨row, hrow, hrowId, hbound⟩ := horder.bounded id draw hdraw
      have hsame : row = counter := List.inj_on_of_nodup_map horder.ids hrow hcounter
        (hrowId.trans (hid.symm.trans hproject.symm))
      exact Nat.lt_succ_of_le (hsame ▸ hbound)
    · exact horder.numbers id

/-- A new project gets a counter of its own. -/
theorem CountersInOrder.createProject (horder : CountersInOrder world) {project : Project}
    (heffect : Effect world.db (.createProject project) after) :
    CountersInOrder (world.after number (.createProject project) after) := by
  have hids := projectIds_after heffect
  have hdraws : ∀ id, draws id (world.after number (.createProject project) after).log =
      draws id world.log := draws_after_of_ne fun _ _ ↦ by simp
  obtain ⟨hfresh, _, _, _, _, rfl⟩ := heffect
  have hnew : project.id ∉ world.db.projectCounters.map ProjectCounter.projectId := by
    intro hmem
    obtain ⟨counter, hcounter, hid⟩ := List.mem_map.mp hmem
    exact hfresh (hid ▸ horder.counted counter hcounter)
  have hcounters : initCounter project.id project.tenantId world.db.projectCounters =
      world.db.projectCounters ++
        [{ projectId := project.id, tenantId := project.tenantId }] := by
    rw [initCounter, if_neg]
    simpa using hnew
  simp only [World.after, hcounters] at hids hdraws ⊢
  refine ⟨nodup_map_append_singleton horder.ids hnew, fun counter hcounter ↦ ?_,
    fun id draw hdraw ↦ ?_, fun id ↦ ?_⟩
  · rcases List.mem_append.mp hcounter with hold | hmade
    · exact hids (horder.counted counter hold)
    · rw [List.mem_singleton.mp hmade, List.map_append]
      exact List.mem_append_right _ List.mem_cons_self
  · obtain ⟨counter, hcounter, hbound⟩ := horder.bounded id draw (hdraws id ▸ hdraw)
    exact ⟨counter, List.mem_append_left _ hcounter, hbound⟩
  · rw [hdraws id]
    exact horder.numbers id

/-- Every step keeps the order of the counters. -/
theorem CountersInOrder.step (horder : CountersInOrder world)
    (heffect : Effect world.db label after) : CountersInOrder (world.after number label after) := by
  by_cases hwrites : .projectCounters ∈ label.writes
  · cases label <;> simp only [WorkStep.writes, List.mem_cons, List.not_mem_nil, reduceCtorEq,
      or_self, or_false] at hwrites
    case createProject project => exact horder.createProject heffect
    case incrementCounter projectId seq =>
      obtain ⟨⟨counter, hcounter, hproject, rfl⟩, rfl⟩ := heffect
      exact horder.increment hcounter hproject
  · have hdraws : ∀ id, draws id (world.after number label after).log = draws id world.log :=
      draws_after_of_ne fun _ _ hlabel ↦ hwrites (hlabel ▸ List.mem_cons_self)
    have hcounters := heffect.frame.projectCounters hwrites
    refine ⟨hcounters ▸ horder.ids, fun counter hcounter ↦ ?_, fun id draw hdraw ↦ ?_, fun id ↦ ?_⟩
    · exact projectIds_after heffect (horder.counted counter (hcounters ▸ hcounter))
    · rw [World.after, hcounters]
      exact horder.bounded id draw (hdraws id ▸ hdraw)
    · rw [hdraws id]
      exact horder.numbers id

/-- A step that keeps its promises keeps the invariant. -/
theorem KeysInOrder.step (horder : KeysInOrder world)
    (hkeeps : KeepsKeys number world label after) :
    KeysInOrder (world.after number label after) where
  projects := horder.projects.step hkeeps.effect hkeeps.dashless
  counters := horder.counters.step hkeeps.effect
  drawn keyed hkeyed := by
    change keyed ∈ after.workItems.map WorkItem.keyed at hkeyed
    rw [keyed_after hkeeps.effect, List.mem_append] at hkeyed
    rcases hkeyed with hold | hnew
    · obtain ⟨other, hdrawn⟩ := horder.drawn keyed hold
      exact ⟨other, hdrawn.step hkeeps.effect⟩
    · cases label <;> simp only [createdKey, Option.toList_none, List.not_mem_nil] at hnew
      case createWorkItem item =>
        obtain rfl := List.mem_singleton.mp hnew
        exact ⟨number, (hkeeps.reserved item rfl).drawn.step hkeeps.effect⟩
  keys := by
    change (after.workItems.map WorkItem.keyed).Nodup
    rw [keyed_after hkeeps.effect]
    cases label with
    | createWorkItem item =>
      rw [createdKey, Option.toList_some, ← List.concat_eq_append]
      exact horder.keys.concat (hkeeps.reserved item rfl).unused
    | _ => simpa only [createdKey, Option.toList_none, List.append_nil] using horder.keys

/-- No other call takes a key that is held in reserve. -/
theorem reserved_stable (keyed : Uuid × String) :
    keyProtocol.Stable number (Reserved number keyed) := by
  intro other hne world label after horder hreserved hkeeps
  refine ⟨hreserved.drawn.step hkeeps.effect, ?_⟩
  change keyed ∉ after.workItems.map WorkItem.keyed
  rw [keyed_after hkeeps.effect, List.mem_append, not_or]
  refine ⟨hreserved.unused, fun hcreated ↦ ?_⟩
  cases label <;> simp only [createdKey, Option.toList_none, List.not_mem_nil] at hcreated
  case createWorkItem item =>
    obtain rfl := List.mem_singleton.mp hcreated
    have hother := (hkeeps.reserved item rfl).drawn
    exact hne (horder.drawnBy_unique hother hreserved.drawn)

/-! ### The calls -/

/-- A step that creates neither a project nor an item keeps the protocol. -/
theorem keeps_of_effect (horder : KeysInOrder world) (heffect : Effect world.db label after)
    (hproject : ∀ project, label ≠ .createProject project)
    (hitem : ∀ item, label ≠ .createWorkItem item) :
    keyProtocol.Keeps number world label after := by
  have hkeeps : KeepsKeys number world label after :=
    ⟨heffect, fun project hlabel ↦ absurd hlabel (hproject project),
      fun item hlabel ↦ absurd hlabel (hitem item)⟩
  exact ⟨hkeeps, horder.step hkeeps⟩

theorem keeps_other (horder : KeysInOrder world) :
    keyProtocol.Keeps number world .other world.db :=
  keeps_of_effect horder (effect_other_refl _) (by simp) (by simp)

/-- A call that only reads keeps the protocol. -/
theorem reads_keepKeys {α : Type} {call : WorkCall α} (hreads : call.Only Reads) :
    keyProtocol.Meets number call (fun _ ↦ True) fun _ _ ↦ True := by
  refine Protocol.meets_of_only hreads Protocol.stable_true fun world label after horder _ _ hstep ↦ ?_
  obtain ⟨rfl, rfl⟩ := hstep
  exact ⟨keeps_other horder, trivial⟩

/-- The key of a project never changes. -/
theorem named_stable (named : Uuid × String) :
    keyProtocol.Stable number fun world ↦ named ∈ world.db.projects.map Project.named :=
  fun _ _ _ _ _ _ hnamed hkeeps ↦ named_after hkeeps.effect hnamed

/-- The project a call reads has its key for good. -/
theorem getProject_keepsKeys (tenantId projectId : Uuid) :
    keyProtocol.Meets number (getProject tenantId projectId) (fun _ ↦ True)
      fun project world ↦ (projectId, project.key) ∈ world.db.projects.map Project.named := by
  have hfind : keyProtocol.Meets number (findProjectById projectId) (fun _ ↦ True)
      fun found world ↦ ∀ project ∈ found,
        (projectId, project.key) ∈ world.db.projects.map Project.named := by
    refine Protocol.meets_query Protocol.stable_true fun world horder _ _ ↦
      ⟨keeps_other horder, fun project hfound ↦ ?_⟩
    have hid : project.id = projectId := by simpa using List.find?_some hfound
    exact List.mem_map.mpr ⟨project, List.mem_of_find?_eq_some hfound, by rw [Project.named, hid]⟩
  refine hfind.bind fun found _ ↦ ?_
  refine Protocol.meets_require.bind fun project _ ↦ ?_
  refine Protocol.meets_ensure.bind fun _ _ ↦ ?_
  exact fun _ _ ⟨⟨hnamed, hfound⟩, _⟩ ↦ hnamed project hfound

/-- A number that is just drawn makes a key that no item has. -/
theorem reserved_of_increment (horder : KeysInOrder world) {projectId : Uuid} {key : String}
    (hnamed : (projectId, key) ∈ world.db.projects.map Project.named) {seq : ℕ}
    (hnext : nextItemNumber projectId world.db = .ok (seq, after)) :
    Reserved number (projectId, itemKeyOf key seq)
      (world.after number (.incrementCounter projectId seq) after) := by
  have heffect : Effect world.db (.incrementCounter projectId seq) after := nextItemNumber_ok hnext
  refine ⟨⟨key, seq, named_after heffect hnamed, ?_, rfl⟩, ?_⟩
  · rw [draws_after, drawFor, if_pos rfl]
    exact List.mem_cons_self
  · change _ ∉ after.workItems.map WorkItem.keyed
    rw [keyed_after heffect]
    simp only [createdKey, Option.toList_none, List.append_nil]
    intro husedKey
    obtain ⟨drawer, usedKey, usedSeq, husedNamed, hdraw, hsame⟩ := horder.drawn _ husedKey
    obtain ⟨_, rfl⟩ := itemKeyOf_inj (horder.projects.dashless_of_named hnamed) hsame
    obtain ⟨⟨counter, hcounter, hid, hseq⟩, _⟩ := heffect
    obtain ⟨row, hrow, hrowId, hbound⟩ := horder.counters.bounded projectId _ hdraw
    have hcounterRow : row = counter :=
      List.inj_on_of_nodup_map horder.counters.ids hrow hcounter (hrowId.trans hid.symm)
    rw [hcounterRow] at hbound
    dsimp only at hbound
    omega

/-- `generateItemKey` leaves its key in reserve. -/
theorem generateItemKey_keepsKeys (tenantId projectId : Uuid) :
    keyProtocol.Meets number (generateItemKey tenantId projectId) (fun _ ↦ True)
      fun itemKey ↦ Reserved number (projectId, itemKey) := by
  refine (getProject_keepsKeys tenantId projectId).bind fun project _ ↦ ?_
  refine Protocol.meets_ensure.bind fun _ _ ↦ ?_
  have hincrement : keyProtocol.Meets number (incrementCounter projectId)
      (fun world ↦ (projectId, project.key) ∈ world.db.projects.map Project.named)
      fun seq ↦ Reserved number (projectId, itemKeyOf project.key seq) := by
    refine Protocol.meets_transaction (named_stable _) (fun world horder _ _ ↦ keeps_other horder)
      fun world seq after horder hnamed _ hnext ↦ ⟨?_, reserved_of_increment horder hnamed hnext⟩
    exact keeps_of_effect horder (nextItemNumber_ok hnext) (by simp) (by simp)
  refine (hincrement.strengthen fun _ _ hpre ↦ hpre.1).bind fun seq _ ↦ ?_
  exact Protocol.meets_pure fun _ _ hreserved ↦ hreserved

/-- The insertion of an item under a key in reserve keeps the protocol. -/
theorem commitWorkItem_keepsKeys {keyed : Uuid × String} {newItem : Uuid → Timestamp → WorkItem}
    (hkeyed : ∀ id createdAt, (newItem id createdAt).keyed = keyed) (actorId : Uuid) :
    keyProtocol.Meets number (transaction .createWorkItem (commitWorkItem newItem actorId))
      (Reserved number keyed) fun _ _ ↦ True := by
  refine Protocol.meets_transaction (reserved_stable keyed)
    (fun world horder _ _ ↦ keeps_other horder)
    fun world created after horder hreserved _ hcommit ↦ ⟨?_, trivial⟩
  obtain ⟨hcreated, hfresh, hafter⟩ := commitWorkItem_ok hcommit
  have hkeeps : KeepsKeys number world (.createWorkItem created) after := by
    refine ⟨⟨hfresh, _, _, _, hafter⟩, by simp, ?_⟩
    rintro _ ⟨⟩
    rwa [hcreated, hkeyed]
  exact ⟨hkeeps, horder.step hkeeps⟩

/-- `createWorkItem` keeps the protocol. -/
theorem createWorkItem_keepsKeys (actor : Actor) (projectId : Uuid) (type : WorkItemType)
    (title : String) (opts : CreateWorkItemOpts) :
    keyProtocol.Meets number (createWorkItem actor projectId type title opts) (fun _ ↦ True)
      fun _ _ ↦ True := by
  refine (reads_keepKeys (getProject_reads _ _)).andThen fun project ↦ ?_
  refine (reads_keepKeys (whenPresent_reads _ (by simp))).andThen fun _ ↦ ?_
  refine (reads_keepKeys (whenPresent_reads _ (by simp))).andThen fun _ ↦ ?_
  refine (reads_keepKeys (resolveStatusId_reads _ _ _)).andThen fun statusId ↦ ?_
  refine (reads_keepKeys (whenPresent_reads _ (by simp))).andThen fun _ ↦ ?_
  refine (generateItemKey_keepsKeys actor.tenantId projectId).bind fun itemKey _ ↦ ?_
  have hkeyed : ∀ id createdAt, (newWorkItem actor projectId type title opts statusId itemKey id
      createdAt).keyed = (projectId, itemKey) := fun _ _ ↦ rfl
  exact commitWorkItem_keepsKeys hkeyed actor.sub

/-- `createTask` keeps the protocol. -/
theorem createTask_keepsKeys (actor : Actor) (parentId : Uuid) (title : String)
    (opts : CreateWorkItemOpts) :
    keyProtocol.Meets number (createTask actor parentId title opts) (fun _ ↦ True)
      fun _ _ ↦ True := by
  refine (reads_keepKeys (getWorkItem_reads _ _)).andThen fun parent ↦ ?_
  refine (reads_keepKeys (Call.only_ensure _ _)).andThen fun _ ↦ ?_
  exact createWorkItem_keepsKeys actor parent.projectId .task title _

/-- A project that a request creates has a key without a dash. -/
theorem serve_dashless (request : WorkRequest) : request.serve.Only fun _ label _ ↦
    ∀ project, label = .createProject project → '-' ∉ project.key.toList := by
  cases request with
  | createProject actor workspaceId key name description leadId =>
    refine Call.only_map ?_
    simp only [createProject, Call.only_bind, findProjectByKey, findWorkspaceMember, uuidv7_eq,
      Call.only_query, Call.only_ensure, Call.only_require, Call.only_atomically, reduceCtorEq,
      false_implies, implies_true, true_and]
    intro _ _ _ _ _ _ _ _ _ _ projectId _
    refine Call.only_transaction (by simp) fun db created after hcommit ↦ ?_
    obtain ⟨rfl, _⟩ := commitProject_ok hcommit
    rintro _ ⟨⟩
    exact dash_notMem_normalizeKey key.property
  | _ =>
    refine (serve_takes _).mono ?_
    rintro db label after htakes project rfl
    exact Bool.noConfusion htakes

/-- Every call keeps the protocol. -/
theorem serve_keepsKeys (request : WorkRequest) (number : ℕ) :
    keyProtocol.Meets number request.serve (Fresh number) fun _ _ ↦ True := by
  refine Protocol.Meets.strengthen ?_ fun _ _ _ ↦ trivial
  cases request with
  | createWorkItem actor projectId type title opts =>
    exact (createWorkItem_keepsKeys actor projectId type title opts).map
  | createTask actor parentId title opts =>
    exact (createTask_keepsKeys actor parentId title opts).map
  | _ =>
    refine Protocol.meets_of_only
      (((serve_effect _).and (serve_dashless _)).and (serve_takes _)) Protocol.stable_true
      fun world label after horder _ _ ⟨⟨heffect, hdashless⟩, htakes⟩ ↦ ?_
    have hkeeps : KeepsKeys number world label after := by
      refine ⟨heffect, hdashless, ?_⟩
      rintro item rfl
      exact Bool.noConfusion htakes
    exact ⟨⟨hkeeps, horder.step hkeeps⟩, trivial⟩

/-! ### Every interleaving -/

/-- Under the invariant the item keys are unique. -/
theorem KeysInOrder.unique (horder : KeysInOrder world) : UniqueItemKeys world where
  numbers := horder.counters.numbers
  keys := by
    have hdistinct := List.pairwise_map.mp horder.keys
    refine hdistinct.imp_of_mem fun {first second} hfirst hsecond hne hdiffer hsame ↦ ?_
    rcases hdiffer with hproject | ⟨firstProject, hfirstProject, secondProject, hsecondProject,
      hfirstId, hsecondId, hfirstLive, hsecondLive, htenant⟩
    · exact hne (Prod.ext hproject hsame)
    · obtain ⟨_, firstKey, _, hfirstNamed, _, hfirstKey⟩ :=
        horder.drawn _ (List.mem_map_of_mem hfirst)
      obtain ⟨_, secondKey, _, hsecondNamed, _, hsecondKey⟩ :=
        horder.drawn _ (List.mem_map_of_mem hsecond)
      obtain ⟨rfl, _⟩ := itemKeyOf_inj (horder.projects.dashless_of_named hfirstNamed)
        (hfirstKey.symm.trans (hsame.trans hsecondKey))
      have hkey : secondProject.key = firstProject.key :=
        (horder.projects.key_eq hsecondProject hsecondId hsecondNamed).trans
          (horder.projects.key_eq hfirstProject hfirstId hfirstNamed).symm
      have hid : firstProject.id = secondProject.id :=
        horder.projects.liveKeys firstProject hfirstProject secondProject hsecondProject hfirstLive
          (decide_eq_true ⟨htenant.symm, hkey, hsecondLive⟩)
      exact hne (Prod.ext (hfirstId.symm.trans (hid.trans hsecondId)) hsame)

/-- Assumes: the tables of projects, counters and work items are empty at the start. In every
reachable state the item keys are unique and the numbers of every project have been handed out in
increasing order, for any interleaving of the calls of the work services. -/
theorem reachable_uniqueItemKeys {db : Db} (hprojects : db.projects = [])
    (hcounters : db.projectCounters = []) (hitems : db.workItems = [])
    {config : Concurrency.Config Db WorkStep Failure Unit}
    (hreach : Reachable WorkRequest.serve anyStep db config) : UniqueItemKeys config.toWorld := by
  have hinitial : KeysInOrder ⟨db, []⟩ := by
    refine ⟨⟨?_, ?_, ?_⟩, ⟨?_, ?_, ?_, ?_⟩, ?_, ?_⟩ <;>
      simp [hprojects, hcounters, hitems, draws]
  have horder : keyProtocol.invariant config.toWorld :=
    Protocol.reachable_invariant serve_keepsKeys hinitial hreach
  exact KeysInOrder.unique horder

/-- An empty workspace with one member. -/
def workspaceDb : Db where
  workspaceMembers := [{ workspaceId := 3, userId := 4 }]
  nextUuid := 100

/-- Two items are created at once in a project; then the project is deleted and its key taken again. -/
def reusedKey : List (Choice WorkRequest) :=
  .start (.createProject ⟨4, 2⟩ 3 ⟨"app", by decide⟩ "First" none none) :: finish 0 ++
    [.start (.createWorkItem ⟨4, 2⟩ 100 .story "One" {}),
      .start (.createWorkItem ⟨4, 2⟩ 100 .story "Two" {})] ++
    List.replicate 5 (.resume 1) ++ finish 2 ++ finish 1 ++
    .start (.deleteProject 2 100) :: finish 3 ++
    .start (.createProject ⟨4, 2⟩ 3 ⟨"App", by decide⟩ "Second" none none) :: finish 4

/-- A witness: a run with two creations at once and a key that is taken twice. -/
theorem reachable_uniqueItemKeys_witness :
    UniqueItemKeys
      ((Concurrency.Config.initial workspaceDb).play WorkRequest.serve reusedKey).toWorld :=
  reachable_uniqueItemKeys rfl rfl rfl (play_reachable (allowsAll_anyStep _ reusedKey))

example : let db := ((Concurrency.Config.initial workspaceDb).play WorkRequest.serve reusedKey).db
    db.workItems.map WorkItem.itemKey = ["APP-2", "APP-1"] ∧
      db.projects.map Project.key = ["APP", "APP"] := by
  decide +kernel

end RallyApi.Work
