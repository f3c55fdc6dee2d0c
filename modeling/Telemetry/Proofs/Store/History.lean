import Mathlib.Data.List.Nodup
import Telemetry.Proofs.Store.Expiry

/-!
# What a store has been told

A store is talked to call by call. What it ought to answer is a matter of what has been said so far
and of nothing else: a key has been used as often as that was noted since it was issued, it is
enabled until it is revoked for the first time, and lists follow the order in which their members
came to be. Here is the table that this makes, and how it grows by one more thing said.

Main statement: `revocations_follow`.
-/

namespace Telemetry.Store

open Time (DateTime)

/-! ## Calls and answers -/

/-- A call of the store. -/
inductive Call
  | createProject (account name : Option String)
  | createKey (account project name : Option String) (expiresAt : Option DateTime)
  | recordUsage (id : Option String) (time : Option DateTime)
  | revokeKey (id : Option String)
  | findByDigest (digest : Option String)
  | keysOf (project : Option String)
  | projectsOf (account : Option String)
  | projectIdsOf (account : Option String)

/-- Whether a call only reads. -/
def Call.reads : Call → Bool
  | .findByDigest _ | .keysOf _ | .projectsOf _ | .projectIdsOf _ => true
  | _ => false

/-- What a store answers. -/
inductive Answer
  | project (made : Except Fault Project)
  | key (issued : Except Fault IssuedKey)
  | noted
  | revoked (wasEnabled : Bool)
  | found (key : Except Fault (Option Key))
  | keys (all : Except Fault (List Key))
  | projects (all : Except Fault (List Project))
  | projectIds (all : Except Fault (List String))

/-- A call, with the surroundings in which it is made. -/
structure Visit where
  world : World
  call : Call

/-- A call that was answered. -/
structure Said extends Visit where
  answer : Answer

/-- The answer of a store, and what it holds afterwards. -/
def Visit.run (v : Visit) (c : Credentials) : Answer × Credentials :=
  match v.call with
  | .createProject account name =>
    let (made, _, c) := c.createProject account name v.world
    (.project made, c)
  | .createKey account project name expiresAt =>
    let (issued, _, c) := c.createKey account project name expiresAt v.world
    (.key issued, c)
  | .recordUsage id time => (.noted, c.recordUsage id time)
  | .revokeKey id =>
    let (wasEnabled, c) := c.revokeKey id
    (.revoked wasEnabled, c)
  | .findByDigest digest => (.found (c.findByDigest digest), c)
  | .keysOf project => (.keys (c.keysOf project), c)
  | .projectsOf account => (.projects (c.projectsOf account), c)
  | .projectIdsOf account => (.projectIds (c.projectIdsOf account), c)

/-- What is said when a store is called again and again. -/
def converse : List Visit → Credentials → List Said
  | [], _ => []
  | v :: rest, c => ⟨v, (v.run c).1⟩ :: converse rest (v.run c).2

/-! ## What can be read off -/

/-- A key that was issued, and when. -/
structure Issue extends IssuedKey where
  time : DateTime

/-- The key that was issued. -/
def Said.issue? (s : Said) : Option Issue :=
  match s.answer with
  | .key (.ok issued) => some ⟨issued, s.world.utcNow⟩
  | _ => none

/-- The project that was made. -/
def Said.project? (s : Said) : Option Project :=
  match s.answer with
  | .project (.ok project) => some project
  | _ => none

/-- Whether the key with an id was issued. -/
def Said.issues (id : String) (s : Said) : Bool := s.issue?.any (·.key.id == id)

/-- The time at which a use of the key with an id was noted, if one was. -/
def Said.use? (id : String) (s : Said) : Option (Option DateTime) :=
  match s.call with
  | .recordUsage user time => if user = some id then some time else none
  | _ => none

/-- Whether the key with an id was to be revoked. -/
def Said.revokes (id : String) (s : Said) : Bool :=
  match s.call with
  | .revokeKey target => target == some id
  | _ => false

/-- Whether the answer was that a key is revoked now. -/
def Answer.confirms : Answer → Bool
  | .revoked wasEnabled => wasEnabled
  | _ => false

/-- Everything that was said, the first thing first. -/
abbrev History := List Said

namespace History

/-- The keys that were issued. -/
def issues (h : History) : List Issue := h.filterMap Said.issue?

/-- The projects that were made. -/
def projects (h : History) : List Project := h.filterMap Said.project?

/-- What was said after the key with an id was issued. -/
def since (id : String) : History → History
  | [] => []
  | s :: rest => if s.issues id then rest else since id rest

/-- The times at which uses of a key were noted. -/
def uses (id : String) (h : History) : List (Option DateTime) := (since id h).filterMap (·.use? id)

/-- Whether a key has been revoked. -/
def isRevoked (id : String) (h : History) : Bool := (since id h).any (·.revokes id)

/-- How often a key was to be revoked and was. -/
def revocations (id : String) (h : History) : Nat :=
  h.countP fun s => s.revokes id && s.answer.confirms

/-- Whether a key may be bound to a project: to none, or to one that was made. -/
def knowsProject (h : History) : Option String → Bool
  | none => true
  | some id => (projects h).any (·.id == id)

end History

open History

/-! ## The table -/

/-- What is left of a time in the table. -/
def restored (t : DateTime) : DateTime := (DateTime.ofEpoch? t.toEpoch).getD t

/-- A project as the table has it. -/
def Project.listed (project : Project) : Project :=
  { project with createdAt := restored project.createdAt }

/-- The key that is issued where its token and its id are drawn. -/
def issuedIn (w : World) (account : String) (project name : Option String)
    (expiresAt : Option DateTime) : IssuedKey :=
  let token := Token.mark ++ String.ofList (uniqueHex w.drawNumber.1)
  { token
    key :=
      { id := w.drawNumber.2.drawId.1
        digest := Token.digest token
        start := Token.start token
        account
        project
        expiresAt
        name } }

/-- The project that is made where its id is drawn. -/
def projectIn (w : World) : (account name : Option String) → Except Fault Project
  | some account, some name => .ok ⟨w.drawId.1, account, name, w.utcNow⟩
  | _, _ => .error .constraint

namespace History

/-- The key that is issued, if it has an account, and any project that it names was made. -/
def keyIn (h : History) (w : World) (account project name : Option String)
    (expiresAt : Option DateTime) : Except Fault IssuedKey :=
  match account with
  | some account =>
    if knowsProject h project then .ok (issuedIn w account project name expiresAt)
    else .error .constraint
  | none => .error .constraint

/-- A key as it stands: used as often, and last at the time, that was noted since it was issued, and
enabled until it was revoked. -/
def keyNow (h : History) (key : Key) : Key :=
  { key with
    enabled := !isRevoked key.id h
    expiresAt := key.expiresAt.map restored
    requestCount := (uses key.id h).length
    lastRequest := (uses key.id h).getLast?.join.map restored }

/-- What the table answers, after a history. -/
def answer (h : History) (v : Visit) : Answer :=
  match v.call with
  | .createProject account name => .project (projectIn v.world account name)
  | .createKey account project name expiresAt =>
    .key (keyIn h v.world account project name expiresAt)
  | .recordUsage _ _ => .noted
  | .revokeKey id => .revoked ((issues h).any fun i => some i.key.id == id && !isRevoked i.key.id h)
  | .findByDigest digest =>
    .found (.ok (((issues h).find? fun i => some i.key.digest == digest).map (keyNow h ·.key)))
  | .keysOf project =>
    .keys (.ok (((issues h).filter fun i => project.isSome && i.key.project == project).map
      (keyNow h ·.key)))
  | .projectsOf account =>
    .projects (.ok (((projects h).filter fun p => some p.account == account).map Project.listed))
  | .projectIdsOf account =>
    .projectIds (.ok (((projects h).filter fun p => some p.account == account).map (·.id)))

/-- What is said when the table is called again and again, after a history. -/
def follow (h : History) : List Visit → History
  | [] => h
  | v :: rest => follow (h ++ [⟨v, answer h v⟩]) rest

end History

/-! ## What is drawn, and when -/

/-- The unique identifiers that a call draws, the one in a token among them. -/
def Visit.uniques (v : Visit) : List String :=
  match v.call with
  | .createProject _ _ => [v.world.drawId.1]
  | .createKey _ _ _ _ => [uniqueText v.world.drawNumber.1, v.world.drawNumber.2.drawId.1]
  | _ => []

/-- The times that a call writes and that are read again. -/
def Visit.times (v : Visit) : List DateTime :=
  match v.call with
  | .createProject _ _ => [v.world.utcNow]
  | .createKey _ _ _ expiresAt => expiresAt.toList
  | .recordUsage _ time => time.toList
  | _ => []

/-- Identifiers are drawn once, issued tokens have digests of their own, the clock does not go back,
and the times that were written can be read. -/
structure Orderly (h : History) : Prop where
  uniques : (h.flatMap fun s => s.uniques).Nodup
  digests : ∀ i ∈ issues h, ∀ j ∈ issues h, Token.digest i.token = Token.digest j.token →
    i.token = j.token
  clock : h.Pairwise fun s s' => s.world.now.instant ≤ s'.world.now.instant
  times : ∀ s ∈ h, ∀ t ∈ s.times, (DateTime.ofEpoch? t.toEpoch).isSome = true

variable {h rest : History} {s : Said} {v : Visit} {id : String}

theorem Orderly.left (horderly : Orderly (h ++ rest)) : Orderly h where
  uniques := by
    have hnodup := horderly.uniques
    rw [List.flatMap_append] at hnodup
    exact (List.nodup_append.mp hnodup).1
  digests i hi j hj := by
    refine horderly.digests i ?_ j ?_ <;> rw [issues, List.filterMap_append]
    · exact List.mem_append_left _ hi
    · exact List.mem_append_left _ hj
  clock := (List.pairwise_append.mp horderly.clock).1
  times s hs := horderly.times s (List.mem_append_left _ hs)

namespace History

/-! ## One more thing said -/

theorem filterMap_singleton {α β : Type} (f : α → Option β) (a : α) :
    [a].filterMap f = (f a).toList := by
  cases h : f a <;> simp [h]

theorem issues_snoc (h : History) (s : Said) :
    issues (h ++ [s]) = issues h ++ s.issue?.toList := by
  rw [issues, List.filterMap_append, filterMap_singleton]
  rfl

theorem projects_snoc (h : History) (s : Said) :
    projects (h ++ [s]) = projects h ++ s.project?.toList := by
  rw [projects, List.filterMap_append, filterMap_singleton]
  rfl

theorem any_issues (id : String) (h : History) :
    (h.any (·.issues id)) = (issues h).any (·.key.id == id) := by
  induction h with
  | nil => rfl
  | cons s rest ih =>
    rw [List.any_cons, ih]
    unfold Said.issues issues
    cases hissue : s.issue? with
    | none =>
      rw [List.filterMap_cons_none hissue]
      rfl
    | some i =>
      rw [List.filterMap_cons_some hissue]
      rfl

theorem mem_of_mem_since (hs : s ∈ since id h) : s ∈ h := by
  induction h with
  | nil => exact hs
  | cons first rest ih =>
    unfold since at hs
    split at hs
    · exact List.mem_cons_of_mem _ hs
    · exact List.mem_cons_of_mem _ (ih hs)

theorem since_append (hissued : (issues h).any (·.key.id == id) = true) (rest : History) :
    since id (h ++ rest) = since id h ++ rest := by
  rw [← any_issues] at hissued
  induction h with
  | nil => cases hissued
  | cons first others ih =>
    rw [List.any_cons] at hissued
    rw [List.cons_append, since, since]
    cases hfirst : first.issues id with
    | true => rfl
    | false =>
      rw [hfirst, Bool.false_or] at hissued
      exact ih hissued

theorem since_append_of_not_issued (hnot : (issues h).any (·.key.id == id) = false)
    (rest : History) : since id (h ++ rest) = since id rest := by
  rw [← any_issues] at hnot
  induction h with
  | nil => rfl
  | cons first others ih =>
    rw [List.any_cons, Bool.or_eq_false_iff] at hnot
    rw [List.cons_append, since, hnot.1]
    exact ih hnot.2

/-- A key that was not issued has no history. -/
theorem since_of_not_issued (hnot : (issues h).any (·.key.id == id) = false) : since id h = [] := by
  have hsince := since_append_of_not_issued hnot []
  rwa [List.append_nil] at hsince

theorem since_snoc (id : String) (h : History) (s : Said) :
    since id (h ++ [s]) = if (issues h).any (·.key.id == id) then since id h ++ [s] else [] := by
  cases hissued : (issues h).any (·.key.id == id) with
  | true => exact since_append hissued [s]
  | false =>
    rw [since_append_of_not_issued hissued]
    show (if s.issues id then [] else []) = []
    exact ite_self []

/-- What is said of a key counts once the key was issued. -/
theorem uses_snoc (hissued : (issues h).any (·.key.id == id) = true) (s : Said) :
    uses id (h ++ [s]) = uses id h ++ (s.use? id).toList := by
  rw [uses, since_snoc, if_pos hissued, List.filterMap_append, filterMap_singleton]
  rfl

theorem isRevoked_snoc (id : String) (h : History) (s : Said) :
    isRevoked id (h ++ [s])
      = ((issues h).any (·.key.id == id) && (isRevoked id h || s.revokes id)) := by
  rw [isRevoked, since_snoc]
  cases (issues h).any (·.key.id == id) with
  | false => rfl
  | true => simp [isRevoked]

/-- What is said of other keys changes nothing of a key. -/
theorem keyNow_append {key : Key} (hissued : (issues h).any (·.key.id == key.id) = true)
    (hother : ∀ s ∈ rest, s.use? key.id = none ∧ s.revokes key.id = false) :
    keyNow (h ++ rest) key = keyNow h key := by
  have huses : uses key.id (h ++ rest) = uses key.id h := by
    rw [uses, since_append hissued, List.filterMap_append,
      List.filterMap_eq_nil_iff.mpr fun s hs => (hother s hs).1, List.append_nil]
    rfl
  have hrevoked : isRevoked key.id (h ++ rest) = isRevoked key.id h := by
    rw [isRevoked, since_append hissued, List.any_append,
      List.any_eq_false.mpr fun s hs => Bool.eq_false_iff.mp (hother s hs).2, Bool.or_false]
    rfl
  rw [keyNow, huses, hrevoked]
  rfl

/-! ## A whole conversation -/

/-- What holds of a history and stays so when one more call is answered holds ever after. -/
theorem follow_kept {P : History → Prop} (hstep : ∀ h v, P h → P (h ++ [⟨v, answer h v⟩]))
    (visits : List Visit) (hkept : P h) : P (follow h visits) := by
  induction visits generalizing h with
  | nil => exact hkept
  | cons v rest ih => exact ih (hstep h v hkept)

theorem exists_follow (h : History) (visits : List Visit) :
    ∃ rest, follow h visits = h ++ rest := by
  refine follow_kept (P := fun h' => ∃ rest, h' = h ++ rest) ?_ visits
    ⟨[], (List.append_nil h).symm⟩
  rintro _ v ⟨rest, rfl⟩
  exact ⟨_, List.append_assoc ..⟩

/-- Every answer is what the table answers after what was said before. -/
def Answered (h : History) : Prop :=
  ∀ before s after, h = before ++ s :: after → s.answer = answer before s.toVisit

theorem Answered.snoc (h : History) (v : Visit) (hall : Answered h) :
    Answered (h ++ [⟨v, answer h v⟩]) := by
  intro before s after hsplit
  rcases List.eq_nil_or_concat after with rfl | ⟨inner, last, rfl⟩
  · obtain ⟨rfl, hlast⟩ := List.append_inj' hsplit rfl
    cases hlast
    rfl
  · rw [List.concat_eq_append, ← List.cons_append, ← List.append_assoc] at hsplit
    exact hall before s inner (List.append_inj' hsplit rfl).1

theorem answered_follow (visits : List Visit) : Answered (follow [] visits) :=
  follow_kept Answered.snoc visits fun before s after hsplit => by simp at hsplit

/-- Only a key that was issued and has not been revoked is revoked. -/
theorem answer_revokeKey (h : History) {v : Visit} (hcall : v.call = .revokeKey (some id)) :
    answer h v = .revoked ((issues h).any (·.key.id == id) && !isRevoked id h) := by
  have hcongr : ((issues h).any fun i => some i.key.id == some id && !isRevoked i.key.id h)
      = ((issues h).any (·.key.id == id) && !isRevoked id h) := by
    induction issues h with
    | nil => rfl
    | cons i rest ih =>
      rw [List.any_cons, List.any_cons, ih]
      cases hid : i.key.id == id with
      | false => simp [hid]
      | true =>
        rw [beq_iff_eq.mp hid]
        simp
  unfold answer
  rw [hcall]
  exact congrArg Answer.revoked hcongr

/-- **A key is revoked at most once**, and once it was to be revoked it has been. -/
theorem revocations_follow (id : String) (visits : List Visit) :
    revocations id (follow [] visits) = (isRevoked id (follow [] visits)).toNat := by
  refine follow_kept (P := fun h => revocations id h = (isRevoked id h).toNat) ?_ visits rfl
  intro h v hkept
  have hcount : revocations id (h ++ [⟨v, answer h v⟩]) = revocations id h
      + (Said.revokes id ⟨v, answer h v⟩ && (answer h v).confirms).toNat := by
    rw [revocations, List.countP_append, List.countP_singleton]
    cases Said.revokes id ⟨v, answer h v⟩ && (answer h v).confirms <;> rfl
  have hunknown : (issues h).any (·.key.id == id) = false → isRevoked id h = false := by
    intro hnot
    rw [isRevoked, since_of_not_issued hnot]
    rfl
  rw [hcount, isRevoked_snoc, hkept]
  -- A revocation is confirmed just if it is the first one since the key was issued.
  cases hrevokes : Said.revokes id ⟨v, answer h v⟩ with
  | false =>
    cases hissued : (issues h).any (·.key.id == id) with
    | false => simp [hunknown hissued]
    | true => simp
  | true =>
    have hcall : v.call = .revokeKey (some id) := by
      unfold Said.revokes at hrevokes
      split at hrevokes
      · rename_i target htarget
        rw [← beq_iff_eq.mp hrevokes]
        exact htarget
      · cases hrevokes
    rw [answer_revokeKey h hcall]
    cases hissued : (issues h).any (·.key.id == id) with
    | false => simp [hunknown hissued, Answer.confirms]
    | true => cases isRevoked id h <;> rfl

end History

end Telemetry.Store
