import RallyApi.CrossTenant.Reads
import RallyApi.CrossTenant.Services

/-!
# Releases

The methods of `ReleasesService` that create and delete a release, with the methods of
`ReleaseDrizzleRepository` they call, and `linkTeam`, on a store that holds the releases beside the tables
of the work services and the whole rows of the team links.
-/

set_option autoImplicit false
set_option relaxedAutoImplicit false

namespace RallyApi.Releases

open Concurrency CrossTenant Platform Store Work

/-! ### The store -/

/-- What is committed, of the work services and the team links, and of the releases. -/
structure Db where
  cross : CrossTenant.Db
  releases : List Release := []

/-- The store of the work services. -/
abbrev Db.work (db : Db) : Work.Db := db.cross.work

/-- The store with the team links. -/
def crossPart : Concurrency.Part Db CrossTenant.Db where
  get := Db.cross
  put cross db := { db with cross }
  put_get _ := rfl

/-- What a step does. -/
inductive ReleaseStep
  | cross (label : CrossStep)
  | other
  | createRelease (release : Release)
  | deleteRelease (id : Uuid)

/-- A call of one of the services. -/
abbrev ReleaseCall := Call Db ReleaseStep Failure

/-- A call of a service whose store is that with the team links. -/
def ofCross {α : Type} (call : CrossCall α) : ReleaseCall α := call.within crossPart ReleaseStep.cross

/-- A call of a work service. -/
def ofWork {α : Type} (call : WorkCall α) : ReleaseCall α := ofCross (CrossTenant.ofWork call)

/-! ### `ReleaseDrizzleRepository` -/

/-- `findById`. -/
def findById (id : Uuid) : ReleaseCall (Option Release) :=
  Call.query .other fun db ↦ db.releases.find? fun release ↦ release.id = id

/-- `create`, against the primary key. -/
def create (release : Release) : ReleaseCall Release :=
  Call.transaction .other ReleaseStep.createRelease fun db ↦ do
    let created := { release with createdAt := db.work.now }
    checkPrimaryKey "releases_pkey" Release.id db.releases created.id
    .ok (created, { db with releases := db.releases ++ [created] })

/-- The store after `delete`. -/
def Db.deleteRelease (db : Db) (id : Uuid) : Db :=
  { db with releases := deleteWhere (fun release ↦ release.id = id) db.releases }

/-- `delete`. -/
def delete (id : Uuid) : ReleaseCall Unit :=
  Call.atomically (fun _ ↦ .deleteRelease id) fun db ↦ ((), db.deleteRelease id)

/-! ### `ReleasesService` -/

/-- The options of `createRelease`. -/
structure CreateReleaseOpts where
  description : Option String := none
  targetDate : Option String := none

/-- `createRelease`. -/
def createRelease (actor : Actor) (projectId : Uuid) (name : String) (opts : CreateReleaseOpts) :
    ReleaseCall Release := do
  let _ ← ofWork (getProject actor.tenantId projectId)
  let id ← ofWork Work.uuidv7
  create
    { id, tenantId := actor.tenantId, projectId, name, description := opts.description,
      targetDate := opts.targetDate, createdAt := 0 }

/-- `getRelease`. -/
def getRelease (tenantId id : Uuid) : ReleaseCall Release := do
  let notFound := notFoundException .releaseNotFound "Release not found"
  let found ← findById id
  let release ← Call.require found notFound
  Call.ensure (release.tenantId = tenantId) notFound
  pure release

/-- `deleteRelease`. The code of the refusal is that of a release that is not found. -/
def deleteRelease (tenantId id : Uuid) : ReleaseCall Unit := do
  let release ← getRelease tenantId id
  Call.ensure (release.status ≠ .released) (preconditionFailedException .releaseNotFound
    "Released versions cannot be deleted")
  delete id

/-! ### Requests -/

/-- What clients ask of the services that set and delete what items are planned for. -/
inductive PlanningRequest
  | work (request : WorkRequest)
  | linkTeam (tenantId projectId teamId : Uuid)
  | createRelease (actor : Actor) (projectId : Uuid) (name : String) (opts : CreateReleaseOpts)
  | deleteRelease (tenantId id : Uuid)

/-- The call that serves a request. -/
def PlanningRequest.serve : PlanningRequest → ReleaseCall Unit
  | .work request => ofWork request.serve
  | .linkTeam tenantId projectId teamId =>
    (fun _ ↦ ()) <$> ofCross (CrossTenant.linkTeam tenantId projectId teamId)
  | .createRelease actor projectId name opts =>
    (fun _ ↦ ()) <$> Releases.createRelease actor projectId name opts
  | .deleteRelease tenantId id => Releases.deleteRelease tenantId id

end RallyApi.Releases
