import RallyApi.Collaboration.CommentsService
import RallyApi.Concurrency.Growth
import RallyApi.Concurrency.Requests
import RallyApi.Concurrency.Returns
import RallyApi.Store.Lasting

/-!
# Comments are their authors'

A comment is edited and deleted by its identifier, in a statement after the one that has read its author;
other calls may write it in between. What the check has found still holds then, since a comment stays the
comment of its author for good (`Comment.Becomes`).

`reachable_attributed`: in every run, a comment was created by its author, its text is one that its author
has sent, and only requests of its author have edited or deleted it. `comments_last`: no comment is lost,
its text does not change without a mark, and one whose deletion has returned is never listed again.
-/

set_option autoImplicit false
set_option relaxedAutoImplicit false

namespace RallyApi.Collaboration

open Concurrency Protocol Platform Store
open Work (Actor)

variable {db after : Db} {row later : Comment} {actor : Actor} {requests : List CommentRequest}
  {request : CommentRequest} {number : ℕ} {world : World Db Unit}

/-! ### What a comment may become -/

/-- The two rows are of one comment: the columns that nothing writes are the same. -/
structure SameComment (row later : Comment) : Prop where
  id : later.id = row.id
  tenantId : later.tenantId = row.tenantId
  workItemId : later.workItemId = row.workItemId
  authorId : later.authorId = row.authorId
  parentId : later.parentId = row.parentId
  createdAt : later.createdAt = row.createdAt

theorem sameComment_refl (row : Comment) : SameComment row row := ⟨rfl, rfl, rfl, rfl, rfl, rfl⟩

theorem SameComment.trans {third : Comment} (hfirst : SameComment row later)
    (hsecond : SameComment later third) : SameComment row third where
  id := hsecond.id.trans hfirst.id
  tenantId := hsecond.tenantId.trans hfirst.tenantId
  workItemId := hsecond.workItemId.trans hfirst.workItemId
  authorId := hsecond.authorId.trans hfirst.authorId
  parentId := hsecond.parentId.trans hfirst.parentId
  createdAt := hsecond.createdAt.trans hfirst.createdAt

/-- What becomes of a comment: it stays the same comment, a change of its text is marked, and neither the
mark nor the deletion is taken back. -/
structure Comment.Becomes (row later : Comment) : Prop where
  same : SameComment row later
  marked : later.body ≠ row.body → later.isEdited = true
  edited : row.isEdited = true → later.isEdited = true
  deleted : row.deletedAt.isSome = true → later.deletedAt.isSome = true

theorem becomes_refl (row : Comment) : row.Becomes row :=
  ⟨sameComment_refl row, fun hchanged ↦ absurd rfl hchanged, id, id⟩

theorem becomes_trans (first second third : Comment) (hfirst : first.Becomes second)
    (hsecond : second.Becomes third) : first.Becomes third where
  same := hfirst.same.trans hsecond.same
  marked hchanged := by
    by_cases hsame : third.body = second.body
    · exact hsecond.edited (hfirst.marked (hsame ▸ hchanged))
    · exact hsecond.marked hsame
  edited hedited := hsecond.edited (hfirst.edited hedited)
  deleted hdeleted := hsecond.deleted (hfirst.deleted hdeleted)

theorem sameComment_edited (row : Comment) (body : String) (now : Timestamp) :
    SameComment row (row.edited body now) := ⟨rfl, rfl, rfl, rfl, rfl, rfl⟩

theorem sameComment_removed (row : Comment) (now : Timestamp) : SameComment row (row.removed now) :=
  ⟨rfl, rfl, rfl, rfl, rfl, rfl⟩

theorem becomes_edited (row : Comment) (body : String) (now : Timestamp) :
    row.Becomes (row.edited body now) :=
  ⟨sameComment_edited row body now, fun _ ↦ rfl, fun _ ↦ rfl, id⟩

theorem becomes_removed (row : Comment) (now : Timestamp) : row.Becomes (row.removed now) :=
  ⟨sameComment_removed row now, fun hchanged ↦ absurd rfl hchanged, id, fun _ ↦ rfl⟩

/-! ### Who has written a comment -/

/-- The actor is the author of the comment. -/
def Owns (actor : Actor) (row : Comment) : Prop :=
  row.tenantId = actor.tenantId ∧ row.authorId = actor.sub

theorem Owns.of_same (howns : Owns actor row) (hsame : SameComment row later) : Owns actor later :=
  ⟨hsame.tenantId.trans howns.1, hsame.authorId.trans howns.2⟩

/-- The request has sent the text of the comment, as its author. -/
def CommentRequest.Sends (request : CommentRequest) (row : Comment) : Prop :=
  match request with
  | .createComment actor workItemId body parentId =>
    Owns actor row ∧ row.workItemId = workItemId ∧ row.parentId = parentId ∧ row.body = body
  | .updateComment actor commentId body => Owns actor row ∧ row.id = commentId ∧ row.body = body
  | _ => False

/-- The comment is the work of its author. Assumes: `initial` is the store at the start, and `requests` are
those that have been made. -/
structure Attributed (initial : Db) (requests : List CommentRequest) (row : Comment) : Prop where
  created : (∃ old ∈ initial.comments, SameComment old row) ∨ ∃ actor body,
    .createComment actor row.workItemId body row.parentId ∈ requests ∧ Owns actor row
  sent : (∃ old ∈ initial.comments, SameComment old row ∧ old.body = row.body) ∨
    ∃ request ∈ requests, request.Sends row
  edited : row.isEdited = true → (∃ old ∈ initial.comments, SameComment old row ∧ old.isEdited = true) ∨
    ∃ actor body, .updateComment actor row.id body ∈ requests ∧ Owns actor row
  deleted : row.deletedAt.isSome = true →
    (∃ old ∈ initial.comments, SameComment old row ∧ old.deletedAt.isSome = true) ∨
      ∃ actor, .deleteComment actor row.id ∈ requests ∧ Owns actor row

variable {initial : Db}

theorem attributed_initial (hrow : row ∈ initial.comments) : Attributed initial requests row where
  created := .inl ⟨row, hrow, sameComment_refl row⟩
  sent := .inl ⟨row, hrow, sameComment_refl row, rfl⟩
  edited hedited := .inl ⟨row, hrow, sameComment_refl row, hedited⟩
  deleted hdeleted := .inl ⟨row, hrow, sameComment_refl row, hdeleted⟩

/-- What a request has sent as the text of a comment, it has sent of the same comment with that text. -/
theorem CommentRequest.Sends.of_same (hsends : request.Sends row) (hsame : SameComment row later)
    (hbody : later.body = row.body) : request.Sends later := by
  cases request with
  | createComment actor workItemId body parentId =>
    obtain ⟨howns, hitem, hparent, hsent⟩ := hsends
    exact ⟨howns.of_same hsame, hsame.workItemId.trans hitem, hsame.parentId.trans hparent,
      hbody.trans hsent⟩
  | updateComment actor commentId body =>
    obtain ⟨howns, hid, hsent⟩ := hsends
    exact ⟨howns.of_same hsame, hsame.id.trans hid, hbody.trans hsent⟩
  | listComments actor workItemId => exact hsends
  | deleteComment actor commentId => exact hsends
  | tick microseconds => exact hsends

/-- Assumes: the text, the mark and the deletion of a comment that is rewritten are as they were, or its
author has asked for them. -/
theorem Attributed.rewrite (hrow : Attributed initial requests row) (hsame : SameComment row later)
    (hsent : later.body = row.body ∨ ∃ request ∈ requests, request.Sends later)
    (hedited : later.isEdited = row.isEdited ∨
      ∃ actor body, .updateComment actor later.id body ∈ requests ∧ Owns actor later)
    (hdeleted : later.deletedAt = row.deletedAt ∨
      ∃ actor, .deleteComment actor later.id ∈ requests ∧ Owns actor later) :
    Attributed initial requests later where
  created := by
    rcases hrow.created with ⟨old, hold, hfrom⟩ | ⟨actor, body, hrequest, howns⟩
    · exact .inl ⟨old, hold, hfrom.trans hsame⟩
    · rw [hsame.workItemId, hsame.parentId]
      exact .inr ⟨actor, body, hrequest, howns.of_same hsame⟩
  sent := by
    refine hsent.elim (fun hbody ↦ ?_) .inr
    rcases hrow.sent with ⟨old, hold, hfrom, htext⟩ | ⟨request, hrequest, hsends⟩
    · exact .inl ⟨old, hold, hfrom.trans hsame, htext.trans hbody.symm⟩
    · exact .inr ⟨request, hrequest, hsends.of_same hsame hbody⟩
  edited hmarked := by
    refine hedited.elim (fun hmark ↦ ?_) .inr
    rcases hrow.edited (hmark ▸ hmarked) with ⟨old, hold, hfrom, hwas⟩ | ⟨actor, body, hrequest, howns⟩
    · exact .inl ⟨old, hold, hfrom.trans hsame, hwas⟩
    · exact .inr ⟨actor, body, hsame.id.symm ▸ hrequest, howns.of_same hsame⟩
  deleted hgone := by
    refine hdeleted.elim (fun hmark ↦ ?_) .inr
    rcases hrow.deleted (hmark ▸ hgone) with ⟨old, hold, hfrom, hwas⟩ | ⟨actor, hrequest, howns⟩
    · exact .inl ⟨old, hold, hfrom.trans hsame, hwas⟩
    · exact .inr ⟨actor, hsame.id.symm ▸ hrequest, howns.of_same hsame⟩

/-- Assumes: its author has asked for the edit. -/
theorem Attributed.edit {body : String} (hrow : Attributed initial requests row)
    (hrequest : .updateComment actor row.id body ∈ requests) (howns : Owns actor row) (now : Timestamp) :
    Attributed initial requests (row.edited body now) :=
  hrow.rewrite (sameComment_edited row body now) (.inr ⟨_, hrequest, howns, rfl, rfl⟩)
    (.inr ⟨actor, body, hrequest, howns⟩) (.inl rfl)

/-- Assumes: its author has asked for the deletion. -/
theorem Attributed.remove (hrow : Attributed initial requests row)
    (hrequest : .deleteComment actor row.id ∈ requests) (howns : Owns actor row) (now : Timestamp) :
    Attributed initial requests (row.removed now) :=
  hrow.rewrite (sameComment_removed row now) (.inl rfl) (.inl rfl) (.inr ⟨actor, hrequest, howns⟩)

/-! ### The protocol -/

/-- The invariant: identifiers are distinct and were drawn, and every comment is the work of its author. -/
structure CommentsInOrder (initial : Db) (requests : List CommentRequest) (db : Db) : Prop where
  ids : (db.comments.map fun row ↦ row.id).Nodup
  drawn : ∀ row ∈ db.comments, row.id < db.nextUuid
  attributed : ∀ row ∈ db.comments, Attributed initial requests row

/-- The comments of the first store are in the second, as what they have become. -/
def Keeps (before after : Db) : Prop := Lasts Comment.Becomes before.comments after.comments

theorem keeps_refl (db : Db) : Keeps db db := lasts_refl becomes_refl _

theorem keeps_trans (first second third : Db) (hfirst : Keeps first second) (hsecond : Keeps second third) :
    Keeps first third := Lasts.trans becomes_trans hfirst hsecond

/-- The protocol. -/
def authorship (initial : Db) (requests : List CommentRequest) : Protocol Db Unit where
  permits := anyStep
  invariant world := CommentsInOrder initial requests world.db
  guarantee _ world _ after := Keeps world.db after

/-- A step that writes no comment. -/
theorem keeps_same (hinv : CommentsInOrder initial requests world.db)
    (hcomments : after.comments = world.db.comments) (hnext : after.nextUuid = world.db.nextUuid) :
    (authorship initial requests).Keeps number world () after := by
  refine ⟨?_, ?_, ?_, ?_⟩
  · change Lasts Comment.Becomes world.db.comments after.comments
    exact hcomments ▸ lasts_refl becomes_refl _
  · exact hcomments ▸ hinv.ids
  · change ∀ row ∈ after.comments, row.id < after.nextUuid
    rw [hcomments, hnext]
    exact hinv.drawn
  · change ∀ row ∈ after.comments, _
    rw [hcomments]
    exact hinv.attributed

/-- A step that writes the comment with an identifier. Assumes: what it is set to is what it may become, and
is the work of its author. -/
theorem keeps_update {id : Uuid} {set : Comment → Comment}
    (hinv : CommentsInOrder initial requests world.db) (hset : ∀ row, Comment.Becomes row (set row))
    (hattributed : ∀ row ∈ world.db.comments, row.id = id → Attributed initial requests (set row)) :
    (authorship initial requests).Keeps number world () (world.db.updateComment id set) := by
  have hids : ∀ row, (set row).id = row.id := fun row ↦ (hset row).same.id
  refine ⟨lasts_updateWhere becomes_refl fun row _ _ ↦ hset row, ?_, ?_, ?_⟩
  · exact nodup_map_updateWhere hids hinv.ids
  · intro row hrow
    obtain ⟨old, hold, rfl⟩ := mem_updateWhere.mp hrow
    split_ifs
    · exact (hids old).symm ▸ hinv.drawn old hold
    · exact hinv.drawn old hold
  · intro row hrow
    obtain ⟨old, hold, rfl⟩ := mem_updateWhere.mp hrow
    split_ifs with hid
    · exact hattributed old hold (of_decide_eq_true hid)
    · exact hinv.attributed old hold

/-! ### The calls -/

/-- The comment is there. -/
def Present (row : Comment) (db : Db) : Prop := ∃ later ∈ db.comments, SameComment row later

/-- The comment with the identifier is there, and deleted. -/
def Gone (id : Uuid) (db : Db) : Prop := ∃ row ∈ db.comments, row.id = id ∧ row.deletedAt.isSome = true

theorem keeps_present (before after : Db) (hkeeps : Keeps before after) (hpresent : Present row before) :
    Present row after := by
  obtain ⟨found, hfound, hsame⟩ := hpresent
  obtain ⟨later, hlater, hbecomes⟩ := hkeeps found hfound
  exact ⟨later, hlater, hsame.trans hbecomes.same⟩

theorem keeps_gone {id : Uuid} (before after : Db) (hkeeps : Keeps before after) (hgone : Gone id before) :
    Gone id after := by
  obtain ⟨found, hfound, hid, hdeleted⟩ := hgone
  obtain ⟨later, hlater, hbecomes⟩ := hkeeps found hfound
  exact ⟨later, hlater, hbecomes.same.id.trans hid, hbecomes.deleted hdeleted⟩

theorem persistent_present (row : Comment) :
    (authorship initial requests).Persistent fun world ↦ Present row world.db :=
  persistent_of_growth (fun _ _ _ _ hstep ↦ hstep) fun before after ↦ keeps_present before after

theorem persistent_gone (id : Uuid) :
    (authorship initial requests).Persistent fun world ↦ Gone id world.db :=
  persistent_of_growth (fun _ _ _ _ hstep ↦ hstep) fun before after ↦ keeps_gone before after

/-- A comment of the actor with the identifier is there. -/
def OwnPresent (actor : Actor) (id : Uuid) (world : World Db Unit) : Prop :=
  ∃ row, Present row world.db ∧ row.id = id ∧ Owns actor row

/-- The row with the identifier is the actor's. -/
theorem OwnPresent.owns {id : Uuid} (hown : OwnPresent actor id world)
    (hinv : CommentsInOrder initial requests world.db) (hrow : row ∈ world.db.comments)
    (hid : row.id = id) : Owns actor row := by
  obtain ⟨found, ⟨later, hlater, hsame⟩, hfound, howns⟩ := hown
  have hboth : row = later :=
    List.inj_on_of_nodup_map hinv.ids hrow hlater (hid.trans (hsame.id.trans hfound).symm)
  exact hboth ▸ howns.of_same hsame

/-- What the checks find of the comment holds when they return: it is the actor's. -/
theorem meets_ownComment (commentId : Uuid) (notOwned : String) :
    (authorship initial requests).Meets number (ownComment actor commentId notOwned) (fun _ ↦ True)
      fun _ ↦ OwnPresent actor commentId := by
  have hfind : (authorship initial requests).Meets number (findById commentId) (fun _ ↦ True)
      fun found world ↦ ∀ row, found = some row → row.id = commentId ∧ Present row world.db := by
    refine meets_query stable_true fun world hinv _ _ ↦ ⟨keeps_same hinv rfl rfl, fun row hrow ↦ ?_⟩
    have hmatches := List.find?_some hrow
    exact ⟨of_decide_eq_true hmatches, row, List.mem_of_find?_eq_some hrow, sameComment_refl row⟩
  refine hfind.bind fun found _ ↦ meets_require.bind fun comment _ ↦ meets_ensure.bind fun _ _ ↦ ?_
  refine meets_ensure.conseq (fun _ _ hpre ↦ hpre) fun _ world _ hpost ↦ ?_
  obtain ⟨⟨⟨hfound, hcomment⟩, htenant, _⟩, hauthor⟩ := hpost
  obtain ⟨hid, hpresent⟩ := hfound comment hcomment
  exact ⟨comment, hpresent, hid, htenant, hauthor⟩

/-- A statement that writes the comment with an identifier. Assumes: where the comment is the actor's, what
it is set to is what it may become, and is the work of its author. -/
theorem meets_write {α : Type} {id : Uuid} {result : Db → α} {set : Timestamp → Comment → Comment}
    {post : α → World Db Unit → Prop} (hset : ∀ now row, Comment.Becomes row (set now row))
    (hattributed : ∀ row now, Attributed initial requests row → row.id = id → Owns actor row →
      Attributed initial requests (set now row))
    (hpost : ∀ world : World Db Unit, OwnPresent actor id world → post (result world.db)
      (world.after number () (world.db.updateComment id (set world.db.now)))) :
    (authorship initial requests).Meets number
      (Call.atomically (fun _ ↦ ()) fun db ↦ (result db, db.updateComment id (set db.now)) : CommentCall α)
      (OwnPresent actor id) post := by
  have hstable : (authorship initial requests).Stable number (OwnPresent actor id) := by
    rintro other _ world label after hinv ⟨row, hpresent, hid, howns⟩ hguarantee
    exact ⟨row, persistent_present row other world label after hinv hpresent hguarantee, hid, howns⟩
  refine meets_atomically hstable fun world hinv hown _ ↦ ⟨?_, hpost world hown⟩
  exact keeps_update hinv (hset world.db.now) fun row hrow hid ↦
    hattributed row world.db.now (hinv.attributed row hrow) hid (hown.owns hinv hrow hid)

/-- What a call promises when it has returned: a comment it has deleted is gone. -/
def Promise (requests : List CommentRequest) (number : ℕ) (_ : List Comment) (world : World Db Unit) :
    Prop :=
  ∀ actor commentId, requests[number]? = some (.deleteComment actor commentId) → Gone commentId world.db

theorem stable_promise (number : ℕ) (returned : List Comment) :
    (authorship initial requests).Stable number (Promise requests number returned) :=
  fun other _ world label after hinv hpromise hguarantee actor commentId hrequest ↦
    persistent_gone commentId other world label after hinv (hpromise actor commentId hrequest) hguarantee

theorem meets_updateComment {body : String} {commentId : Uuid}
    (hrequest : .updateComment actor commentId body ∈ requests) :
    (authorship initial requests).Meets number (updateComment actor commentId body) (fun _ ↦ True)
      fun _ _ ↦ True := by
  refine (meets_ownComment commentId _).bind fun _ _ ↦ ?_
  refine meets_write (fun now row ↦ becomes_edited row body now) (fun row now hrow hid howns ↦ ?_)
    fun _ _ ↦ trivial
  exact hrow.edit (hid.symm ▸ hrequest) howns now

theorem meets_deleteComment {commentId : Uuid} (hrequest : .deleteComment actor commentId ∈ requests) :
    (authorship initial requests).Meets number (deleteComment actor commentId) (fun _ ↦ True)
      fun _ world ↦ Gone commentId world.db := by
  refine (meets_ownComment commentId _).bind fun _ _ ↦ ?_
  refine meets_write (fun now row ↦ becomes_removed row now) (fun row now hrow hid howns ↦ ?_) ?_
  · exact hrow.remove (hid.symm ▸ hrequest) howns now
  · rintro world ⟨row, ⟨later, hlater, hsame⟩, hid, _⟩
    have hlaterId : later.id = commentId := hsame.id.trans hid
    exact ⟨later.removed world.db.now, set_mem_updateWhere hlater (decide_eq_true hlaterId), hlaterId, rfl⟩

theorem meets_createComment {body : String} {workItemId : Uuid} {parentId : Option Uuid}
    (hrequest : .createComment actor workItemId body parentId ∈ requests) :
    (authorship initial requests).Meets number (createComment actor workItemId body parentId)
      (fun _ ↦ True) fun _ _ ↦ True := by
  refine meets_atomically stable_true fun world hinv _ _ ↦ ⟨⟨?_, ?_, ?_, ?_⟩, trivial⟩
  · exact lasts_append becomes_refl _
  · refine nodup_map_append_singleton hinv.ids fun htaken ↦ ?_
    obtain ⟨row, hrow, hid⟩ := List.mem_map.mp htaken
    exact absurd (hinv.drawn row hrow) (Nat.not_lt.mpr (Nat.le_of_eq hid.symm))
  · intro row hrow
    rcases List.mem_append.mp hrow with hold | hnew
    · exact Nat.lt_succ_of_lt (hinv.drawn row hold)
    · obtain rfl := List.mem_singleton.mp hnew
      exact Nat.lt_succ_self _
  · intro row hrow
    rcases List.mem_append.mp hrow with hold | hnew
    · exact hinv.attributed row hold
    · obtain rfl := List.mem_singleton.mp hnew
      exact ⟨.inr ⟨actor, body, hrequest, rfl, rfl⟩, .inr ⟨_, hrequest, ⟨rfl, rfl⟩, rfl, rfl, rfl⟩,
        fun hedited ↦ (nomatch hedited), fun hdeleted ↦ (nomatch hdeleted)⟩

/-- Every request keeps the protocol. -/
theorem meets_serve (hrequest : requests[number]? = some request) :
    (authorship initial requests).Meets number request.serve (fun _ ↦ True) (Promise requests number) := by
  have hmade : request ∈ requests := List.mem_of_getElem? hrequest
  have hother : (∀ actor commentId, request ≠ .deleteComment actor commentId) →
      ∀ {call : CommentCall (List Comment)}, (authorship initial requests).Meets number call (fun _ ↦ True)
        (fun _ _ ↦ True) → (authorship initial requests).Meets number call (fun _ ↦ True)
        (Promise requests number) := fun hno _ hcall ↦
    hcall.conseq (fun _ _ hpre ↦ hpre) fun _ _ _ _ actor commentId hdelete ↦
      absurd (Option.some.inj (hrequest.symm.trans hdelete)) (hno actor commentId)
  cases request with
  | listComments actor workItemId =>
    exact hother (fun _ _ h ↦ by cases h) (meets_query stable_true fun world hinv _ _ ↦
      ⟨keeps_same hinv rfl rfl, trivial⟩)
  | createComment actor workItemId body parentId =>
    exact hother (fun _ _ h ↦ by cases h) (meets_createComment hmade).map
  | updateComment actor commentId body =>
    exact hother (fun _ _ h ↦ by cases h) (meets_updateComment hmade).map
  | deleteComment actor commentId =>
    refine (meets_deleteComment hmade).bind fun _ _ world _ hgone other otherId hdelete ↦ ?_
    cases Option.some.inj (hrequest.symm.trans hdelete)
    exact hgone
  | tick microseconds =>
    exact hother (fun _ _ h ↦ by cases h) (meets_atomically stable_true fun world hinv _ _ ↦
      ⟨keeps_same hinv rfl rfl, trivial⟩)

/-! ### The theorems -/

/-- A configuration of the service. -/
abbrev CommentConfig := Config Db Unit CommentFailure (List Comment)

/-- The identifiers of the comments are distinct, and were drawn. -/
structure Db.Proper (db : Db) : Prop where
  ids : (db.comments.map fun row ↦ row.id).Nodup
  drawn : ∀ row ∈ db.comments, row.id < db.nextUuid

theorem proper_empty : ({} : Db).Proper where
  ids := List.nodup_nil
  drawn _ hrow := by cases hrow

theorem reachable_kept_comments (hdb : db.Proper) {config : CommentConfig}
    (hreach : ReachableBy CommentRequest.serve anyStep db requests config) :
    (authorship db requests).Kept (Promise requests) config :=
  reachableBy_kept stable_promise (fun _ _ hrequest ↦ (meets_serve hrequest).strengthen fun _ _ _ ↦ trivial)
    ⟨hdb.ids, hdb.drawn, fun _ hrow ↦ attributed_initial hrow⟩ hreach (List.prefix_refl requests)

/-- Assumes: at the start the identifiers of the comments are distinct and drawn. In every run, whatever is
in flight at once, each comment was created by its author, has a text that its author has sent for it, and
was edited or deleted only if its author has asked for that. -/
theorem reachable_attributed (hdb : db.Proper) {config : CommentConfig}
    (hreach : ReachableBy CommentRequest.serve anyStep db requests config) :
    ∀ row ∈ config.db.comments, Attributed db requests row :=
  (reachable_kept_comments hdb hreach).invariant.attributed

/-- A step of any call keeps the comments. -/
theorem serve_keeps (request : CommentRequest) :
    request.serve.Only fun before _ after ↦ Keeps before after := by
  have hown : ∀ (actor : Actor) (commentId : Uuid) (notOwned : String),
      (ownComment actor commentId notOwned).Only fun before _ after ↦ Keeps before after :=
    fun actor commentId notOwned ↦ Call.only_bind.mpr ⟨(Call.only_query _ _).mpr keeps_refl, fun found _ ↦
      Call.only_bind.mpr ⟨Call.only_require _ _, fun comment _ ↦
        Call.only_bind.mpr ⟨Call.only_ensure _ _, fun _ _ ↦ Call.only_ensure _ _⟩⟩⟩
  cases request with
  | listComments actor workItemId => exact (Call.only_query _ _).mpr keeps_refl
  | createComment actor workItemId body parentId =>
    exact Call.only_map ((Call.only_atomically _ _).mpr fun before ↦ lasts_append becomes_refl _)
  | updateComment actor commentId body =>
    refine Call.only_map (Call.only_bind.mpr ⟨hown _ _ _, fun _ _ ↦ ?_⟩)
    exact (Call.only_atomically _ _).mpr fun before ↦
      lasts_updateWhere becomes_refl fun row _ _ ↦ becomes_edited row body before.now
  | deleteComment actor commentId =>
    refine Call.only_map (Call.only_bind.mpr ⟨hown _ _ _, fun _ _ ↦ ?_⟩)
    exact (Call.only_atomically _ _).mpr fun before ↦
      lasts_updateWhere becomes_refl fun row _ _ ↦ becomes_removed row before.now
  | tick microseconds => exact (Call.only_atomically _ _).mpr fun before ↦ keeps_refl before

/-- What lasts of the comments from a configuration to a later one. -/
structure CommentsLast (requests : List CommentRequest) (config later : CommentConfig) : Prop where
  kept : ∀ row ∈ config.db.comments, ∃ next ∈ later.db.comments, row.Becomes next
  gone : ∀ (number : ℕ) (actor : Actor) (commentId : Uuid) (returned : List Comment),
    requests[number]? = some (.deleteComment actor commentId) →
    config.calls[number]? = some (.done (.ok returned)) →
    ∀ workItemId tenantId, ∀ row ∈ listByWorkItem workItemId tenantId later.db, row.id ≠ commentId

/-- Assumes: at the start the identifiers of the comments are distinct and drawn. In every run no comment is
lost: it stays the comment of its author on its item, a change of its text is marked, and what is marked or
deleted stays so. After a deletion has returned no list shows the comment. -/
theorem reachable_commentsLast (hdb : db.Proper) {config later : CommentConfig}
    (hreach : ReachableBy CommentRequest.serve anyStep db requests config)
    (hlater : Relation.ReflTransGen (Step CommentRequest.serve anyStep) config later) :
    CommentsLast requests config later := by
  have hkept : Keeps config.db later.db :=
    reachable_growth keeps_refl keeps_trans serve_keeps hreach.reachable hlater
  refine ⟨hkept, ?_⟩
  intro number actor commentId returned hrequest hreturned workItemId tenantId row hrow hid
  have hgone : Gone commentId config.db :=
    (reachable_kept_comments hdb hreach).returned hreturned actor commentId hrequest
  obtain ⟨deleted, hmem, hdeletedId, hdeleted⟩ := keeps_gone _ _ hkept hgone
  obtain ⟨all, hall⟩ := exists_requests (hreach.reachable.trans hlater)
  have hids := (reachable_kept_comments hdb hall).invariant.ids
  obtain ⟨hlisted, hof⟩ := List.mem_filter.mp hrow
  have hboth : row = deleted := List.inj_on_of_nodup_map hids hlisted hmem (hid.trans hdeletedId.symm)
  rw [← hboth, (of_decide_eq_true hof).2.2] at hdeleted
  cases hdeleted

/-! ### A run -/

/-- The requests of a run: two users comment on an item and edit what they have written, each also tries to
edit what the other has, and the first deletes a comment. -/
def discussion : List (Choice CommentRequest) :=
  [.start (.createComment ⟨7, 2⟩ 100 "Ready?" none), .resume 0,
    .start (.createComment ⟨8, 2⟩ 100 "Not yet" (some 0)), .resume 1,
    .start (.updateComment ⟨8, 2⟩ 0 "Ready!"), .start (.updateComment ⟨8, 2⟩ 1 "Yes"),
    .start (.deleteComment ⟨7, 2⟩ 0), .resume 2, .resume 4, .resume 3, .resume 3, .resume 4]

/-- The store after the run. -/
def discussed : CommentConfig := (Config.initial ({} : Db)).play CommentRequest.serve discussion

/-- A witness: the second comment has the text its author has edited it to. -/
theorem reachable_attributed_witness :
    discussed.db.comments.map (fun row ↦ (row.authorId, row.body, row.isEdited, row.deletedAt)) =
        [(7, "Ready?", false, some 0), (8, "Yes", true, none)] ∧
      ∀ row ∈ discussed.db.comments, Attributed {} (requestsOf discussion) row :=
  ⟨by decide +kernel, reachable_attributed proper_empty (play_reachableBy _ _ _)⟩

/-- A witness: the comment that was deleted is not listed after an edit of the other. -/
theorem reachable_commentsLast_witness :
    CommentsLast (requestsOf discussion) discussed (discussed.play CommentRequest.serve
      [.start (.updateComment ⟨8, 2⟩ 1 "No"), .resume 5, .resume 5]) :=
  reachable_commentsLast proper_empty (play_reachableBy _ _ _) (play_reachable (allowsAll_anyStep _ _))

end RallyApi.Collaboration
