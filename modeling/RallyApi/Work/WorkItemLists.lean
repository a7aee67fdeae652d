import RallyApi.Platform.Duration
import RallyApi.Platform.Pagination
import RallyApi.Work.Schema

/-!
# Lists of work items

The paged lists of `WorkItemDrizzleRepository`. Both show the newest items first, and their cursor
condition only looks at `created_at`.

`collectsOnce_iff_cleanBoundaries` says exactly when a client that pages through a list sees every
matching item once, whatever order the database gives to items of the same age. `tiedItem_skipped` is
a list of two items with one creation time, of which paging one by one shows only one.
-/

set_option autoImplicit false
set_option relaxedAutoImplicit false

namespace RallyApi.Work

open Paging Platform

/-! ### The lists -/

/-- `WorkItemFilters`. -/
structure WorkItemFilters where
  type : Option WorkItemType := none
  statusId : Option Uuid := none
  scheduleState : Option ScheduleState := none
  priority : Option Priority := none
  assigneeId : Option Uuid := none
  teamId : Option Uuid := none
  iterationId : Option Uuid := none
  releaseId : Option Uuid := none
  q : Option String := none

variable (matchesTerm : String → WorkItem → Bool)

/-- The condition of a search text. `matchesTerm` is what the database decides of a term and an item:
`ILIKE` on the key or a match of the search vector. -/
def matchesSearch (q : Option String) (item : WorkItem) : Bool :=
  q.all fun q ↦
    let term := String.ofList (trimChars q.toList)
    term = "" || matchesTerm term item

/-- `buildFilters`: the conditions the lists share. -/
def buildFilters (projectId tenantId : Uuid) (filters : WorkItemFilters) (item : WorkItem) : Bool :=
  item.projectId = projectId &&
    item.tenantId = tenantId &&
    item.deletedAt = none &&
    filters.type.all (fun type ↦ item.type = type) &&
    filters.statusId.all (fun statusId ↦ item.statusId = statusId) &&
    filters.scheduleState.all (fun scheduleState ↦ item.scheduleState = scheduleState) &&
    filters.priority.all (fun priority ↦ item.priority = priority) &&
    filters.assigneeId.all (fun assigneeId ↦ item.assigneeId = some assigneeId) &&
    filters.teamId.all (fun teamId ↦ item.teamId = some teamId) &&
    filters.iterationId.all (fun iterationId ↦ item.iterationId = some iterationId) &&
    filters.releaseId.all (fun releaseId ↦ item.releaseId = some releaseId) &&
    matchesSearch matchesTerm filters.q item

/-- The conditions of the backlog: stories and defects only. -/
def backlogFilters (projectId tenantId : Uuid) (filters : WorkItemFilters) (item : WorkItem) : Bool :=
  buildFilters matchesTerm projectId tenantId filters item &&
    (item.type = .story || item.type = .defect)

/-- `WorkItemDrizzleRepository.listByProject`. -/
def WorkItem.listByProject (order : OrderBy WorkItem (Descending WorkItem.createdAt))
    (projectId tenantId : Uuid) (filters : WorkItemFilters) (args : PageArgs)
    (items : List WorkItem) : Except Failure (PagedResult WorkItem) :=
  listPage order WorkItem.createdAt WorkItem.id (buildFilters matchesTerm projectId tenantId filters)
    args items

/-- `WorkItemDrizzleRepository.listBacklog`. -/
def WorkItem.listBacklog (order : OrderBy WorkItem (Descending WorkItem.createdAt))
    (projectId tenantId : Uuid) (filters : WorkItemFilters) (args : PageArgs)
    (items : List WorkItem) : Except Failure (PagedResult WorkItem) :=
  listPage order WorkItem.createdAt WorkItem.id
    (backlogFilters matchesTerm projectId tenantId filters) args items

/-! ### Paging through them -/

/-- The creation times of items, newest first. -/
def newestFirst (items : List WorkItem) : List Timestamp := descending (items.map WorkItem.createdAt)

/-- Assumes: a positive limit. A client that pages through the items of a project, or through its
backlog, collects every matching item exactly once when between any two pages the next item is older
than the last one with the latter's creation time rounded down to milliseconds, and only then. -/
theorem collectsOnce_iff_cleanBoundaries
    (order : ℕ → OrderBy WorkItem (Descending WorkItem.createdAt)) (projectId tenantId : Uuid)
    (filters : WorkItemFilters) {limit : ℕ} (hlimit : 0 < limit) (items : List WorkItem) :
    (CollectsOnce (fun query args ↦ WorkItem.listByProject matchesTerm (order query) projectId tenantId
          filters args items) limit
        (items.filter (buildFilters matchesTerm projectId tenantId filters)) ↔
      CleanBoundaries floorToMilliseconds limit
        (newestFirst (items.filter (buildFilters matchesTerm projectId tenantId filters)))) ∧
    (CollectsOnce (fun query args ↦ WorkItem.listBacklog matchesTerm (order query) projectId tenantId
          filters args items) limit
        (items.filter (backlogFilters matchesTerm projectId tenantId filters)) ↔
      CleanBoundaries floorToMilliseconds limit
        (newestFirst (items.filter (backlogFilters matchesTerm projectId tenantId filters)))) :=
  ⟨collectsOnce_descending order WorkItem.id _ items hlimit,
    collectsOnce_descending order WorkItem.id _ items hlimit⟩

/-- A story of a project, created at a time. -/
def storyAt (id : Uuid) (createdAt : Timestamp) : WorkItem :=
  { id, tenantId := 2, projectId := 1, itemKey := "APP-" ++ toString id, type := .story,
    title := "Story", statusId := 10, createdBy := 4, createdAt }

/-- Three stories created one millisecond after another. -/
def spacedStories : List WorkItem := [storyAt 1 5000, storyAt 2 6000, storyAt 3 7000]

/-- A witness that the condition can be met on more than one page, with a search that finds
nothing. -/
theorem collectsOnce_iff_cleanBoundaries_witness :
    CollectsOnce (fun _ args ↦ WorkItem.listByProject (fun _ _ ↦ false)
        (descendingOrder WorkItem.createdAt) 1 2 {} args spacedStories) 2
      (spacedStories.filter (buildFilters (fun _ _ ↦ false) 1 2 {})) := by
  refine (collectsOnce_iff_cleanBoundaries (fun _ _ ↦ false)
    (fun _ ↦ descendingOrder WorkItem.createdAt) 1 2 {} (by decide) spacedStories).1.mpr ?_
  have hkeys : newestFirst (spacedStories.filter (buildFilters (fun _ _ ↦ false) 1 2 {})) =
      [7000, 6000, 5000] := by decide
  have hclean : CleanBoundaries floorToMilliseconds 2 ([7000] ++ 6000 :: 5000 :: []) :=
    (cleanBoundaries_append rfl).mpr ⟨by decide, cleanBoundaries_of_le (by decide)⟩
  exact hkeys ▸ hclean

/-- Two stories created at the same time. -/
def tiedStories : List WorkItem := [storyAt 1 5000, storyAt 2 5000]

/-- Without the condition items can be lost: of two stories created at the same time, a client that
pages one by one sees one. -/
theorem tiedItem_skipped :
    ¬ ∀ (matchesTerm : String → WorkItem → Bool)
      (order : ℕ → OrderBy WorkItem (Descending WorkItem.createdAt)) (projectId tenantId : Uuid)
      (filters : WorkItemFilters) (limit : ℕ) (items : List WorkItem), 0 < limit →
        CollectsOnce (fun query args ↦ WorkItem.listByProject matchesTerm (order query) projectId
            tenantId filters args items) limit
          (items.filter (buildFilters matchesTerm projectId tenantId filters)) := by
  intro halways
  have honce := halways (fun _ _ ↦ false) (fun _ ↦ descendingOrder WorkItem.createdAt) 1 2 {} 1
    tiedStories (by decide)
  have hclean := (collectsOnce_descending (fun _ ↦ descendingOrder WorkItem.createdAt) WorkItem.id
    (buildFilters (fun _ _ ↦ false) 1 2 {}) tiedStories (by decide)).mp honce
  have hkeys : descending ((tiedStories.filter (buildFilters (fun _ _ ↦ false) 1 2 {})).map
      WorkItem.createdAt) = [5000, 5000] := by decide
  rw [hkeys] at hclean
  exact absurd (hclean 1 5000 5000 (by decide) rfl rfl) (by decide)

end RallyApi.Work
