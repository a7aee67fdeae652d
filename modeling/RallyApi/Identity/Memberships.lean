import RallyApi.Identity.IssuedTokens
import RallyApi.Identity.SessionFamilies
import RallyApi.Store.Multiplicity

/-!
# The memberships of a user

`getMemberships` joins the active keycards of a user with their tenants and, by a left join, with the
workspace-scoped roles of the user there: a keycard is listed once for each of these roles. The list is
ordered by `last_active_at DESC`, which puts the nulls first: a tenant in which the user has never been
active comes before all others, and `login` takes the first.

`listsWell_iff` says for which tables the list is the one that the switcher and `login` rely on.
-/

set_option autoImplicit false
set_option relaxedAutoImplicit false

namespace RallyApi.Identity

open Concurrency Platform Store

/-! ### The list -/

/-- The active keycards of the user for a tenant that exists. -/
def activeKeycards (user : Uuid) (db : Db) : List TenantMember :=
  (db.tenantMembers.filter fun row ↦ row.userId = user ∧ row.status = .active).filter fun row ↦
    db.tenants.any fun tenant ↦ tenant.id = row.tenantId

/-- The workspace-scoped role assignments of the user of a keycard in its tenant. -/
def workspaceAssignments (member : TenantMember) (db : Db) : List UserRoleAssignment :=
  db.userRoleAssignments.filter fun row ↦
    row.userId = member.userId ∧ row.tenantId = member.tenantId ∧ row.scopeType = .workspace

/-- Most recently active first, and never active last. -/
def activeFirst : Option Date → Option Date → Prop
  | _, none => True
  | none, some _ => False
  | some a, some b => b ≤ a

instance : DecidableRel activeFirst := fun a b ↦
  match a, b with
  | none, none => .isTrue trivial
  | some _, none => .isTrue trivial
  | none, some _ => .isFalse id
  | some a, some b => inferInstanceAs (Decidable (b ≤ a))

/-- The list has one entry for each active keycard whose tenant exists, with its tenant and date. -/
def ListsEachOnce (user : Uuid) (db : Db) (memberships : List TenantMembership) : Prop :=
  (memberships.map fun entry ↦ (entry.tenantId, entry.lastActiveAt)).Perm
    ((activeKeycards user db).map fun keycard ↦ (keycard.tenantId, keycard.lastActiveAt))

/-- The tenant is one of a keycard of the user that has been active most recently. -/
def IsLatestTenant (user tenant : Uuid) (db : Db) : Prop :=
  ∃ keycard ∈ activeKeycards user db, keycard.tenantId = tenant ∧
    ∀ other ∈ activeKeycards user db, activeFirst keycard.lastActiveAt other.lastActiveAt

/-- The list of memberships is right: one entry for each active keycard, the most recently active first and
those never active last, and a login of the user is for the first of them. -/
structure ListsWell (user : Uuid) (db : Db) : Prop where
  list : (getMemberships user).Succeeds (fun memberships _ ↦ ListsEachOnce user db memberships ∧
    memberships.Pairwise fun first second ↦ activeFirst first.lastActiveAt second.lastActiveAt) db
  login : ∀ (env : Env) (email password : String) (ipAddress : Option String) (rememberMe : Bool)
    (issued : LoginResult) (after : Db),
    (login env email password ipAddress rememberMe).run db = (.ok issued, after) →
      issued.accessToken.sub = user → IsLatestTenant user issued.accessToken.tenantId db

/-- The user has at most one workspace-scoped role in each tenant, and has been active in all of their
tenants or in none. -/
structure PlainKeycards (user : Uuid) (db : Db) : Prop where
  oneRole : ∀ keycard ∈ activeKeycards user db, (workspaceAssignments keycard db).length ≤ 1
  sameKind : (∀ keycard ∈ activeKeycards user db, keycard.lastActiveAt = none) ∨
    ∀ keycard ∈ activeKeycards user db, keycard.lastActiveAt ≠ none

/-! ### Left joins -/

section LeftJoin

variable {Row Key : Type} {condition : Row → Bool} {rows : List Row}

/-- A left join lists each match, or one absent row. -/
theorem length_leftJoin : (leftJoin condition rows).length = max 1 (rows.filter condition).length := by
  unfold leftJoin
  cases rows.filter condition with
  | nil => rfl
  | cons row rest => simp

theorem exists_mem_leftJoin : ∃ row, row ∈ leftJoin condition rows := by
  refine List.exists_mem_of_length_pos ?_
  rw [length_leftJoin]
  exact Nat.le_max_left _ _

theorem mem_leftJoin_some {row : Row} :
    some row ∈ leftJoin condition rows ↔ row ∈ rows ∧ condition row = true := by
  rw [← List.mem_filter]
  unfold leftJoin
  cases rows.filter condition with
  | nil => simp
  | cons first rest => simp

/-- Assumes: the rows have distinct keys, and those that match have one key. A left join lists one row. -/
theorem length_leftJoin_of_key {key : Row → Key} (hnodup : (rows.map key).Nodup)
    (hsame : ∀ first ∈ rows, ∀ second ∈ rows, condition first = true → condition second = true →
      key first = key second) : (leftJoin condition rows).length = 1 := by
  have hone := countP_le_one_of_key hnodup hsame
  rw [List.countP_eq_length_filter] at hone
  rw [length_leftJoin]
  omega

end LeftJoin

/-! ### One keycard -/

variable {user : Uuid} {db after : Db}

/-- The entry of a keycard with its tenant and a role. -/
def membershipEntry (member : TenantMember) (tenant : Tenant) (role : Option SystemRole) :
    TenantMembership where
  tenantId := member.tenantId
  tenantName := tenant.name
  tenantSlug := tenant.slug
  lastActiveAt := member.lastActiveAt
  roleSlug := role.map (·.slug)
  roleName := role.map (·.name)

/-- The roles that a left join finds for an assignment. -/
def joinedRoles (db : Db) (assignment : Option UserRoleAssignment) : List (Option SystemRole) :=
  leftJoin (fun role : SystemRole ↦ some role.id = assignment.map (·.roleId)) db.systemRoles

/-- Assumes: roles have distinct identifiers. The join finds one row, present or absent. -/
theorem length_joinedRoles (hroles : (db.systemRoles.map SystemRole.id).Nodup)
    (assignment : Option UserRoleAssignment) : (joinedRoles db assignment).length = 1 :=
  length_leftJoin_of_key hroles fun _ _ _ _ hfirst hsecond ↦
    Option.some.inj ((of_decide_eq_true hfirst).trans (of_decide_eq_true hsecond).symm)

/-- The entries of a keycard: one for each combination of tenant, assignment and role. -/
def entriesOf (db : Db) (member : TenantMember) : List TenantMembership :=
  (db.tenants.filter fun row ↦ row.id = member.tenantId).flatMap fun tenant ↦
    (leftJoin (fun row : UserRoleAssignment ↦ row.userId = member.userId ∧
      row.tenantId = member.tenantId ∧ row.scopeType = .workspace) db.userRoleAssignments).flatMap
      fun assignment ↦ (joinedRoles db assignment).map (membershipEntry member tenant)

/-- The identifiers of tenants and roles are distinct, as their primary keys say. -/
structure DistinctKeys (db : Db) : Prop where
  tenants : (db.tenants.map Tenant.id).Nodup
  roles : (db.systemRoles.map SystemRole.id).Nodup

/-- Assumes: tenants and roles have distinct identifiers. A keycard whose tenant exists has an entry for
each workspace-scoped role of its user there, and one if there is none. -/
theorem length_entriesOf (hkeys : DistinctKeys db) {member : TenantMember}
    (htenant : (db.tenants.any fun tenant ↦ tenant.id = member.tenantId) = true) :
    (entriesOf db member).length = max 1 (workspaceAssignments member db).length := by
  obtain ⟨tenant, hmem, hid⟩ := List.any_eq_true.mp htenant
  have hid : tenant.id = member.tenantId := of_decide_eq_true hid
  have hone : (db.tenants.filter fun row ↦ row.id = member.tenantId) = [tenant] := by
    rw [filter_eq_find hkeys.tenants, ← hid, find_of_key hkeys.tenants hmem]
    · rfl
    · intro first _ second _ hfirst hsecond
      exact (of_decide_eq_true hfirst).trans (of_decide_eq_true hsecond).symm
  have hrole : ∀ assignment,
      ((joinedRoles db assignment).map (membershipEntry member tenant)).length = 1 := by
    intro assignment
    rw [List.length_map]
    exact length_joinedRoles hkeys.roles assignment
  rw [entriesOf, hone, List.flatMap_singleton,
    (length_flatMap_eq_iff fun assignment _ ↦ (hrole assignment).ge).mpr
      fun assignment _ ↦ hrole assignment]
  exact length_leftJoin

/-- A keycard whose tenant does not exist has no entry. -/
theorem entriesOf_eq_nil {member : TenantMember}
    (htenant : (db.tenants.any fun tenant ↦ tenant.id = member.tenantId) = false) :
    entriesOf db member = [] := by
  have hnone : (db.tenants.filter fun row ↦ row.id = member.tenantId) = [] := by
    rw [List.filter_eq_nil_iff]
    exact List.any_eq_false.mp htenant
  rw [entriesOf, hnone]
  rfl

/-- The entries of a keycard show its tenant and its date. -/
theorem mem_entriesOf {member : TenantMember} {entry : TenantMembership}
    (hentry : entry ∈ entriesOf db member) :
    (entry.tenantId, entry.lastActiveAt) = (member.tenantId, member.lastActiveAt) := by
  simp only [entriesOf, List.mem_flatMap, List.mem_map] at hentry
  obtain ⟨_, _, _, _, _, _, rfl⟩ := hentry
  rfl

/-! ### The order -/

theorem moreRecent_total (first second : Option Date) :
    moreRecent first second ∨ moreRecent second first := by
  cases first with
  | none => exact .inl trivial
  | some first =>
    cases second with
    | none => exact .inr trivial
    | some second => exact Int.le_total second first

theorem moreRecent_trans {first second third : Option Date} (hfirst : moreRecent first second)
    (hsecond : moreRecent second third) : moreRecent first third := by
  cases first with
  | none => trivial
  | some first =>
    cases second with
    | none => exact hfirst.elim
    | some second =>
      cases third with
      | none => exact hsecond
      | some third => exact Int.le_trans hsecond hfirst

/-- The list in the order of the query. -/
def byActivity (entries : List TenantMembership) : List TenantMembership :=
  entries.insertionSort fun a b ↦ moreRecent a.lastActiveAt b.lastActiveAt

theorem pairwise_byActivity (entries : List TenantMembership) :
    (byActivity entries).Pairwise fun a b ↦ moreRecent a.lastActiveAt b.lastActiveAt := by
  have : Std.Total fun a b : TenantMembership ↦ moreRecent a.lastActiveAt b.lastActiveAt :=
    ⟨fun _ _ ↦ moreRecent_total _ _⟩
  have : IsTrans TenantMembership fun a b ↦ moreRecent a.lastActiveAt b.lastActiveAt :=
    ⟨fun _ _ _ ↦ moreRecent_trans⟩
  exact List.pairwise_insertionSort _ _

theorem activeFirst_none (date : Option Date) : activeFirst date none := by
  cases date <;> trivial

/-- Assumes: dates in the order of the query. The latest come first, and the nulls last, exactly if all are
null or none is. -/
theorem activeFirst_iff_of_sorted {dates : List (Option Date)} (hsorted : dates.Pairwise moreRecent) :
    dates.Pairwise activeFirst ↔ (∀ date ∈ dates, date = none) ∨ ∀ date ∈ dates, date ≠ none := by
  cases dates with
  | nil => simp
  | cons first rest =>
    cases first with
    | none =>
      constructor
      · intro hordered
        refine .inl (List.forall_mem_cons.mpr ⟨rfl, fun date hdate ↦ ?_⟩)
        have hlast := List.rel_of_pairwise_cons hordered hdate
        cases date with
        | none => rfl
        | some date => exact hlast.elim
      · rintro (hnull | hdated)
        · refine hsorted.imp_of_mem fun _ hsecond _ ↦ ?_
          rw [hnull _ hsecond]
          exact activeFirst_none _
        · exact absurd rfl (hdated none List.mem_cons_self)
    | some first =>
      have hdated : ∀ date ∈ some first :: rest, date ≠ none := by
        refine List.forall_mem_cons.mpr ⟨Option.some_ne_none first, ?_⟩
        rintro date hdate rfl
        exact List.rel_of_pairwise_cons hsorted hdate
      refine iff_of_true (hsorted.imp_of_mem fun hfirst hsecond hbefore ↦ ?_) (.inr hdated)
      obtain ⟨a, rfl⟩ := Option.ne_none_iff_exists'.mp (hdated _ hfirst)
      obtain ⟨b, rfl⟩ := Option.ne_none_iff_exists'.mp (hdated _ hsecond)
      exact hbefore

/-- The order of the query has the most recently active first, and those never active last, exactly if all
dates are null or none is. -/
theorem activeFirst_byActivity_iff (entries : List TenantMembership) :
    ((byActivity entries).Pairwise fun a b ↦ activeFirst a.lastActiveAt b.lastActiveAt) ↔
      (∀ entry ∈ entries, entry.lastActiveAt = none) ∨ ∀ entry ∈ entries, entry.lastActiveAt ≠ none := by
  have hsorted := List.pairwise_map.mpr (pairwise_byActivity entries)
  rw [← List.pairwise_map, activeFirst_iff_of_sorted hsorted]
  simp only [List.forall_mem_map, byActivity, List.mem_insertionSort]

/-- The list that `getMemberships` returns. -/
theorem getMemberships_run (user : Uuid) (db : Db) :
    (getMemberships user).run db =
      (.ok (byActivity ((activeKeycards user db).flatMap (entriesOf db))), db) := by
  have hjoined : ((db.tenantMembers.filter fun row ↦ row.userId = user ∧ row.status = .active).flatMap
      (entriesOf db)) = (activeKeycards user db).flatMap (entriesOf db) :=
    flatMap_filter_of_nil fun member _ hmissing ↦ entriesOf_eq_nil hmissing
  have hentries : entriesOf db = fun member ↦ (db.tenants.filter fun row ↦ row.id = member.tenantId).flatMap
      fun tenant ↦ (leftJoin (fun row : UserRoleAssignment ↦ row.userId = member.userId ∧
        row.tenantId = member.tenantId ∧ row.scopeType = .workspace) db.userRoleAssignments).flatMap
        fun assignment ↦ (joinedRoles db assignment).flatMap
          (pure ∘ membershipEntry member tenant) := by
    funext member
    simp only [List.flatMap_pure_eq_map, entriesOf]
  rw [← hjoined, hentries]
  rfl

/-! ### The exact condition -/

/-- An active keycard whose tenant exists is listed. -/
theorem one_le_length_entriesOf (hkeys : DistinctKeys db) :
    ∀ keycard ∈ activeKeycards user db, 1 ≤ (entriesOf db keycard).length := by
  intro keycard hkeycard
  rw [length_entriesOf hkeys (List.mem_filter.mp hkeycard).2]
  exact Nat.le_max_left _ _

/-- The dates of the list are those of the keycards. -/
theorem forall_entries_iff (hkeys : DistinctKeys db) (property : Option Date → Prop) :
    (∀ entry ∈ (activeKeycards user db).flatMap (entriesOf db), property entry.lastActiveAt) ↔
      ∀ keycard ∈ activeKeycards user db, property keycard.lastActiveAt := by
  constructor
  · intro hentries keycard hkeycard
    obtain ⟨entry, hentry⟩ := List.exists_mem_of_length_pos (one_le_length_entriesOf hkeys keycard hkeycard)
    rw [← (Prod.mk.inj (mem_entriesOf hentry)).2]
    exact hentries entry (List.mem_flatMap.mpr ⟨keycard, hkeycard, hentry⟩)
  · intro hkeycards entry hentry
    obtain ⟨keycard, hkeycard, hmem⟩ := List.mem_flatMap.mp hentry
    rw [(Prod.mk.inj (mem_entriesOf hmem)).2]
    exact hkeycards keycard hkeycard

/-- Assumes: tenants and roles have distinct identifiers. The list has one entry for each keycard exactly if
the user has at most one workspace-scoped role in each tenant. -/
theorem listsEachOnce_iff (hkeys : DistinctKeys db) :
    ListsEachOnce user db (byActivity ((activeKeycards user db).flatMap (entriesOf db))) ↔
      ∀ keycard ∈ activeKeycards user db, (workspaceAssignments keycard db).length ≤ 1 := by
  have hlisted : ∀ keycard ∈ activeKeycards user db, _ := one_le_length_entriesOf hkeys
  have hsorted := (List.perm_insertionSort (fun a b : TenantMembership ↦
    moreRecent a.lastActiveAt b.lastActiveAt) ((activeKeycards user db).flatMap (entriesOf db))).map
      fun entry ↦ (entry.tenantId, entry.lastActiveAt)
  rw [ListsEachOnce, byActivity, hsorted.congr_left,
    perm_flatMap_iff hlisted fun keycard _ entry hentry ↦ mem_entriesOf hentry]
  refine forall₂_congr fun keycard hkeycard ↦ ?_
  rw [length_entriesOf hkeys (List.mem_filter.mp hkeycard).2]
  omega

/-- The list is right exactly for plain keycards. -/
theorem list_iff (hkeys : DistinctKeys db) :
    (getMemberships user).Succeeds (fun memberships _ ↦ ListsEachOnce user db memberships ∧
      memberships.Pairwise fun first second ↦ activeFirst first.lastActiveAt second.lastActiveAt) db ↔
        PlainKeycards user db := by
  have hnull : (∀ entry ∈ (activeKeycards user db).flatMap (entriesOf db), entry.lastActiveAt = none) ↔
      ∀ keycard ∈ activeKeycards user db, keycard.lastActiveAt = none := forall_entries_iff hkeys (· = none)
  have hdated : (∀ entry ∈ (activeKeycards user db).flatMap (entriesOf db), entry.lastActiveAt ≠ none) ↔
      ∀ keycard ∈ activeKeycards user db, keycard.lastActiveAt ≠ none := forall_entries_iff hkeys (· ≠ none)
  rw [Call.succeeds_iff_of_run (getMemberships_run user db), listsEachOnce_iff hkeys,
    activeFirst_byActivity_iff, hnull, hdated]
  exact ⟨fun h ↦ ⟨h.1, h.2⟩, fun h ↦ ⟨h.1, h.2⟩⟩

/-- A login that succeeds is for the first entry of the list. -/
theorem login_selects {env : Env} {email password : String} {ipAddress : Option String} {rememberMe : Bool}
    {issued : LoginResult}
    (hrun : (login env email password ipAddress rememberMe).run db = (.ok issued, after)) :
    ∃ first, (byActivity ((activeKeycards issued.accessToken.sub db).flatMap (entriesOf db))).head? =
      some first ∧ issued.accessToken.tenantId = first.tenantId := by
  rw [login, findByEmail, Call.run_query_bind] at hrun
  obtain ⟨row, _, hrun⟩ := Call.run_require_bind_eq_ok.mp hrun
  obtain ⟨passwordHash, _, hrun⟩ := Call.run_require_bind_eq_ok.mp hrun
  obtain ⟨_, hrun⟩ := Call.run_ensure_bind_eq_ok.mp hrun
  obtain ⟨_, hrun⟩ := Call.run_ensure_bind_eq_ok.mp hrun
  obtain ⟨_, hrun⟩ := Call.run_ensure_bind_eq_ok.mp hrun
  rw [uuidv7_eq, Call.run_atomically_bind, Call.run_bind, getMemberships_run] at hrun
  obtain ⟨first, hfirst, hrun⟩ := Call.run_require_bind_eq_ok.mp hrun
  obtain ⟨permissions, granted, _, hrun⟩ := Call.run_bind_eq_ok.mp hrun
  obtain ⟨opened, later, hopened, hrun⟩ := Call.run_bind_eq_ok.mp hrun
  obtain ⟨_, _, _, hrun⟩ := Call.run_bind_eq_ok.mp hrun
  obtain ⟨hsub, htenant⟩ := issueSession_returns (Call.returns_of_run (congrArg Prod.fst hopened))
  cases hrun
  refine ⟨first, ?_, htenant⟩
  change (byActivity ((activeKeycards opened.accessToken.sub db).flatMap (entriesOf db))).head? = _
  rw [hsub]
  exact hfirst

theorem activeFirst_refl (date : Option Date) : activeFirst date date := by
  cases date with
  | none => trivial
  | some date => exact Int.le_refl date

/-- Assumes: the list has the most recently active first. Its first entry is for a tenant of a keycard that
has been active most recently. -/
theorem isLatestTenant_of_head {first : TenantMembership} (hkeys : DistinctKeys db)
    (hordered : (byActivity ((activeKeycards user db).flatMap (entriesOf db))).Pairwise
      fun a b ↦ activeFirst a.lastActiveAt b.lastActiveAt)
    (hfirst : (byActivity ((activeKeycards user db).flatMap (entriesOf db))).head? = some first) :
    IsLatestTenant user first.tenantId db := by
  have hmem : ∀ entry, entry ∈ byActivity ((activeKeycards user db).flatMap (entriesOf db)) ↔
      ∃ keycard ∈ activeKeycards user db, entry ∈ entriesOf db keycard := by
    intro entry
    rw [byActivity, List.mem_insertionSort, List.mem_flatMap]
  obtain ⟨rest, hcons⟩ := List.head?_eq_some_iff.mp hfirst
  rw [hcons] at hordered hmem
  obtain ⟨keycard, hkeycard, hentry⟩ := (hmem first).mp List.mem_cons_self
  obtain ⟨htenant, hdate⟩ := Prod.mk.inj (mem_entriesOf hentry)
  refine ⟨keycard, hkeycard, htenant.symm, fun other hother ↦ ?_⟩
  obtain ⟨entry, hlisted⟩ := List.exists_mem_of_length_pos (one_le_length_entriesOf hkeys other hother)
  rw [← hdate, ← (Prod.mk.inj (mem_entriesOf hlisted)).2]
  rcases List.mem_cons.mp ((hmem entry).mpr ⟨other, hother, hlisted⟩) with rfl | hrest
  · exact activeFirst_refl _
  · exact List.rel_of_pairwise_cons hordered hrest

/-- Assumes: tenants and roles have distinct identifiers. The list of memberships of a user is right exactly
if they have at most one workspace-scoped role in each tenant, and have been active in all of their tenants
or in none. -/
theorem listsWell_iff (hkeys : DistinctKeys db) : ListsWell user db ↔ PlainKeycards user db := by
  constructor
  · exact fun hwell ↦ (list_iff hkeys).mp hwell.list
  · intro hplain
    refine ⟨(list_iff hkeys).mpr hplain, ?_⟩
    rintro env email password ipAddress rememberMe issued after hrun rfl
    obtain ⟨first, hfirst, htenant⟩ := login_selects hrun
    have hright := (Call.succeeds_iff_of_run (getMemberships_run _ db)).mp ((list_iff hkeys).mpr hplain)
    rw [htenant]
    exact isLatestTenant_of_head hkeys hright.2 hfirst

/-! ### A tenant never used -/

/-- The member of the example has been active in their tenant, and has just been added to a second one. -/
def secondTenantDb : Db :=
  { exampleDb with
    tenants := [{ id := 2, slug := "acme", name := "Acme" }, { id := 4, slug := "other", name := "Other" }]
    tenantMembers := [{ id := 3, tenantId := 2, userId := 1, lastActiveAt := some 100 },
                      { id := 5, tenantId := 4, userId := 1 }] }

/-- The member has been active in both tenants, and has a role in each; in the second one also for a
project. -/
def bothTenantsDb : Db :=
  { secondTenantDb with
    tenantMembers := [{ id := 3, tenantId := 2, userId := 1, lastActiveAt := some 100 },
                      { id := 5, tenantId := 4, userId := 1, lastActiveAt := some 300 }]
    systemRoles := [{ id := 50, tenantId := none, name := "Admin", slug := "admin", permissions := [] },
                    { id := 51, tenantId := none, name := "Member", slug := "member", permissions := [] }]
    userRoleAssignments := [{ id := 6, tenantId := 2, userId := 1, roleId := 50, scopeType := .workspace },
                            { id := 7, tenantId := 4, userId := 1, roleId := 51, scopeType := .workspace },
                            { id := 8, tenantId := 4, userId := 1, roleId := 50, scopeType := .project }] }

/-- A witness that the list can be right: two keycards, each with its role, and the later one first. -/
theorem listsWell_iff_witness : ListsWell 1 bothTenantsDb ∧
    ((getMemberships 1).run bothTenantsDb).1.map (List.map fun entry ↦ (entry.tenantId, entry.roleSlug)) =
      .ok [(4, some "member"), (2, some "admin")] :=
  ⟨(listsWell_iff ⟨by decide, by decide⟩).mpr ⟨by decide, .inr (by decide)⟩, rfl⟩

/-- The user is logged in to the tenant in which they have never been active. -/
theorem neverActiveFirst : ¬ ∀ (user : Uuid) (db : Db), DistinctKeys db → ListsWell user db := by
  intro halways
  obtain ⟨_, hlogin⟩ := halways 1 secondTenantDb ⟨by decide, by decide⟩
  have hrun : ∃ issued after,
      (login exampleEnv "ada@example.com" "secret" none true).run secondTenantDb = (.ok issued, after) ∧
        issued.accessToken.sub = 1 ∧ issued.accessToken.tenantId = 4 :=
    ⟨_, _, rfl, rfl, rfl⟩
  obtain ⟨issued, after, hrun, hsub, htenant⟩ := hrun
  obtain ⟨keycard, hkeycard, hsame, hlatest⟩ := hlogin _ _ _ _ _ issued after hrun hsub
  rw [htenant] at hsame
  have hother := hlatest { id := 3, tenantId := 2, userId := 1, lastActiveAt := some 100 } (by decide)
  have hnull : keycard.lastActiveAt = none := by
    revert hsame
    revert keycard
    decide
  rw [hnull] at hother
  exact hother

end RallyApi.Identity
