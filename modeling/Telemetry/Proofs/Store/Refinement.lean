import Telemetry.Proofs.Items
import Telemetry.Proofs.Store.Table

/-!
# The store as a table of keys

Whatever is asked of a store, call after call, it answers as the table does that its history makes.
Its tables have a row for each thing that was made, in the order of the history, and one call keeps
that up, whether the row is written or refused.

Main statement: `converse_eq_follow`.
-/

namespace Telemetry.Store

open Time (DateTime)

open History

variable {h : History} {s : Said} {v : Visit} {i : Issue} {p : Project} {c : Credentials}
  {id : String}

/-! ## Rows -/

/-- The row of a project. -/
def Project.row (project : Project) : ProjectRow :=
  ⟨project.id, project.account, project.name, project.createdAt.toEpoch⟩

/-- The row of an issued key, after a history. -/
def Issue.row (h : History) (i : Issue) : KeyRow :=
  { id := i.key.id
    digest := i.key.digest
    start := i.key.start
    account := i.key.account
    project := i.key.project
    name := i.key.name
    enabled := !isRevoked i.key.id h
    expiresAt := i.key.expiresAt.map DateTime.toEpoch
    requestCount := (uses i.key.id h).length
    lastRequest := (uses i.key.id h).getLast?.join.map DateTime.toEpoch
    createdAt := i.time.toEpoch }

theorem Project.row_createdAt (p : Project) : p.row.createdAt = p.createdAt.toEpoch := by
  simp only [Project.row]

theorem Project.listed_id (p : Project) : p.listed.id = p.id := by
  obtain ⟨id, account, name, createdAt⟩ := p
  show id = id
  rfl

theorem Issue.row_createdAt (h : History) (i : Issue) : (i.row h).createdAt = i.time.toEpoch := by
  simp only [Issue.row]

/-- The tables of a store have a row for each project that was made and each key that was issued, in
this order, and nothing else. -/
structure Represents (h : History) (c : Credentials) : Prop where
  projectRows : c.projects = (projects h).map Project.row
  keyRows : c.keys = (issues h).map (Issue.row h)

theorem readColumnTime_toEpoch {t : DateTime} (ht : (DateTime.ofEpoch? t.toEpoch).isSome = true) :
    readColumnTime t.toEpoch = .ok (restored t) := by
  obtain ⟨back, hback⟩ := Option.isSome_iff_exists.mp ht
  rw [readColumnTime, restored, hback]
  rfl

theorem readOptionalTime_map {time : Option DateTime}
    (htime : ∀ t, time = some t → (DateTime.ofEpoch? t.toEpoch).isSome = true) :
    readOptionalTime (time.map DateTime.toEpoch) = .ok (time.map restored) := by
  cases time with
  | none => rfl
  | some t =>
    rw [Option.map_some, readOptionalTime, readColumnTime_toEpoch (htime t rfl)]
    rfl

theorem times_uses (horderly : Orderly h) {t : DateTime} (ht : some t ∈ uses id h) :
    (DateTime.ofEpoch? t.toEpoch).isSome = true := by
  obtain ⟨s, hs, huse⟩ := List.mem_filterMap.mp ht
  refine horderly.times s (mem_of_mem_since hs) t ?_
  unfold Said.use? at huse
  split at huse
  · rename_i user time hcall
    split at huse
    · rw [Visit.times, hcall, Option.some.inj huse]
      exact List.mem_cons_self
    · cases huse
  · cases huse

/-- The row of a key is read as the key as it stands. -/
theorem Issue.toKey_row (horderly : Orderly h) (hsound : ∀ s ∈ h, s.Sound)
    (hi : i ∈ issues h) : (i.row h).toKey = .ok (keyNow h i.key) := by
  obtain ⟨s, hs, hissue⟩ := List.mem_filterMap.mp hi
  have hexpiry : readOptionalTime (i.row h).expiresAt = .ok (i.key.expiresAt.map restored) :=
    readOptionalTime_map fun t ht =>
      horderly.times s hs t (((hsound s hs).issue i hissue).1.expiry t ht)
  have hlast : readOptionalTime (i.row h).lastRequest
      = .ok ((uses i.key.id h).getLast?.join.map restored) :=
    readOptionalTime_map fun t ht =>
      times_uses horderly (List.mem_of_getLast? (Option.join_eq_some_iff.mp ht))
  unfold KeyRow.toKey
  rw [hexpiry, hlast]
  rfl

theorem Project.toProject_row (horderly : Orderly h) (hsound : ∀ s ∈ h, s.Sound)
    (hp : p ∈ projects h) : p.row.toProject = .ok p.listed := by
  obtain ⟨s, hs, hproject⟩ := List.mem_filterMap.mp hp
  have htime := horderly.times s hs p.createdAt ((hsound s hs).project p hproject).2.2
  unfold ProjectRow.toProject Project.row
  rw [readColumnTime_toEpoch htime]
  rfl

/-! ## Reading the tables -/

section Reading

variable (hrep : Represents h c) (horderly : Orderly h) (hsound : ∀ s ∈ h, s.Sound)

include hrep horderly hsound

theorem Represents.findByDigest (digest : Option String) : c.findByDigest digest
    = .ok (((issues h).find? fun i => some i.key.digest == digest).map (keyNow h ·.key)) := by
  have hfind : (c.keys.find? fun row => some row.digest == digest)
      = ((issues h).find? fun i => some i.key.digest == digest).map (Issue.row h) := by
    rw [hrep.keyRows, List.find?_map]
    rfl
  rw [Credentials.findByDigest, hfind]
  cases hfound : (issues h).find? fun i => some i.key.digest == digest with
  | none => rfl
  | some i =>
    show (i.row h).toKey.map some = _
    rw [Issue.toKey_row horderly hsound (List.mem_of_find?_eq_some hfound)]
    rfl

/-- The clock has not gone back, so the rows of keys are sorted already. -/
theorem Represents.keysOf (project : Option String) : c.keysOf project
    = .ok (((issues h).filter fun i => project.isSome && i.key.project == project).map
      (keyNow h ·.key)) := by
  have hfilter : (c.keys.filter fun row => project.isSome && row.project == project)
      = ((issues h).filter fun i => project.isSome && i.key.project == project).map
        (Issue.row h) := by
    rw [hrep.keyRows, List.filter_map]
    rfl
  have hsorted : (((issues h).filter fun i => project.isSome && i.key.project == project).map
      (Issue.row h)).Pairwise fun a b => a.createdAt.le b.createdAt = true := by
    refine List.pairwise_map.mpr (((horderly.pairwise_issues hsound).filter _).imp ?_)
    rintro i j ⟨-, -, htime⟩
    rw [Issue.row_createdAt, Issue.row_createdAt]
    exact DateTime.toEpoch_mono htime
  rw [Credentials.keysOf, hfilter, List.mergeSort_of_pairwise hsorted, List.mapM_map]
  refine mapM_eq_ok_map fun i hi => ?_
  rw [Function.comp_apply]
  exact Issue.toKey_row horderly hsound (List.mem_filter.mp hi).1

theorem Represents.projectsOf (account : Option String) : c.projectsOf account
    = .ok (((projects h).filter fun p => some p.account == account).map Project.listed) := by
  have hfilter : (c.projects.filter fun row => some row.account == account)
      = ((projects h).filter fun p => some p.account == account).map Project.row := by
    rw [hrep.projectRows, List.filter_map]
    rfl
  have hsorted : (((projects h).filter fun p => some p.account == account).map Project.row).Pairwise
      fun a b => a.createdAt.le b.createdAt = true := by
    refine List.pairwise_map.mpr (((horderly.pairwise_projects hsound).filter _).imp ?_)
    rintro p q ⟨-, htime⟩
    rw [Project.row_createdAt, Project.row_createdAt]
    exact DateTime.toEpoch_mono htime
  rw [Credentials.projectsOf, hfilter, List.mergeSort_of_pairwise hsorted, List.mapM_map]
  refine mapM_eq_ok_map fun p hp => ?_
  rw [Function.comp_apply]
  exact Project.toProject_row horderly hsound (List.mem_filter.mp hp).1

theorem Represents.projectIdsOf (account : Option String) : c.projectIdsOf account
    = .ok (((projects h).filter fun p => some p.account == account).map (·.id)) := by
  rw [Credentials.projectIdsOf, hrep.projectsOf horderly hsound, Except.map]
  rw [List.map_map]
  refine congrArg Except.ok (List.map_congr_left fun p _ => ?_)
  rw [Function.comp_apply, Project.listed_id]

end Reading

/-! ## Writing the tables -/

/-- The row of a key that was issued before what is said now. -/
theorem Issue.row_snoc (hi : i ∈ issues h) (s : Said) : i.row (h ++ [s]) =
    { i.row h with
      enabled := (i.row h).enabled && !s.revokes i.key.id
      requestCount := (i.row h).requestCount + (s.use? i.key.id).toList.length
      lastRequest :=
        (uses i.key.id h ++ (s.use? i.key.id).toList).getLast?.join.map DateTime.toEpoch } := by
  have hissued : (issues h).any (·.key.id == i.key.id) = true :=
    List.any_eq_true.mpr ⟨i, hi, beq_iff_eq.mpr rfl⟩
  simp only [Issue.row, uses_snoc hissued, isRevoked_snoc, hissued, Bool.true_and, Bool.not_or,
    List.length_append]

/-- What says nothing of a key leaves its row alone. -/
theorem Issue.row_snoc_other (hi : i ∈ issues h) (huse : s.use? i.key.id = none)
    (hrevokes : s.revokes i.key.id = false) : i.row (h ++ [s]) = i.row h := by
  rw [Issue.row_snoc hi, huse, hrevokes]
  simp only [Issue.row, Option.toList_none, List.append_nil, List.length_nil, Nat.add_zero,
    Bool.not_false, Bool.and_true]

/-- The row of a key that is issued now is as if nothing had been said. -/
theorem Issue.row_snoc_new (hnew : (issues h).any (·.key.id == i.key.id) = false) (s : Said) :
    i.row (h ++ [s]) = i.row [] := by
  have hsince : since i.key.id (h ++ [s]) = since i.key.id [] := by
    rw [since_snoc, hnew]
    rfl
  simp only [Issue.row, uses, isRevoked, hsince]

/-- What says nothing of any key leaves the rows of keys alone. -/
theorem Represents.keyRows_snoc (hrep : Represents h c) (huse : ∀ id, s.use? id = none)
    (hrevokes : ∀ id, s.revokes id = false) : c.keys = (issues h).map (Issue.row (h ++ [s])) :=
  hrep.keyRows.trans (List.map_congr_left fun i hi =>
    (Issue.row_snoc_other hi (huse i.key.id) (hrevokes i.key.id)).symm)

/-- If it brings nothing new either, it leaves the tables alone. -/
theorem Represents.snoc (hrep : Represents h c) (hissue : s.issue? = none)
    (hproject : s.project? = none) (huse : ∀ id, s.use? id = none)
    (hrevokes : ∀ id, s.revokes id = false) : Represents (h ++ [s]) c where
  projectRows := by
    rw [projects_snoc, hproject, Option.toList_none, List.append_nil]
    exact hrep.projectRows
  keyRows := by
    rw [issues_snoc, hissue, Option.toList_none, List.append_nil]
    exact hrep.keyRows_snoc huse hrevokes

theorem Represents.hasProject (hrep : Represents h c) (id : String) :
    c.hasProject id = (projects h).any (·.id == id) := by
  rw [Credentials.hasProject, hrep.projectRows, List.any_map]
  rfl

theorem Represents.admitsProject (hrep : Represents h c) (project : Option String) :
    c.admitsProject project = knowsProject h project := by
  cases project with
  | none => rfl
  | some id => exact hrep.hasProject id

theorem Represents.hasEnabledKey (hrep : Represents h c) (target : Option String) :
    c.hasEnabledKey target
      = (issues h).any fun i => some i.key.id == target && !isRevoked i.key.id h := by
  rw [Credentials.hasEnabledKey, hrep.keyRows, List.any_map]
  rfl

theorem createProject_eq {w : World} (hnew : c.hasProject w.drawId.1 = false)
    (account name : Option String) : c.createProject account name w
      = (projectIn w account name, w.drawId.2, { c with
          projects := c.projects
            ++ (projectIn w account name).toOption.toList.map Project.row }) := by
  have hsame : c = { c with projects := c.projects ++ [] } := by rw [List.append_nil]
  cases account with
  | none => exact congrArg (fun d => (_, _, d)) hsame
  | some account =>
    cases name with
    | none => exact congrArg (fun d => (_, _, d)) hsame
    | some name =>
      unfold Credentials.createProject
      dsimp only
      rw [if_neg (Bool.eq_false_iff.mp hnew)]
      rfl

theorem createKey_eq {w : World} {account project name : Option String}
    {expiresAt : Option DateTime} (hknows : c.admitsProject project = knowsProject h project)
    (hnew : ∀ issued, keyIn h w account project name expiresAt = .ok issued →
      c.admitsKey issued.key.id issued.key.digest = true) :
    c.createKey account project name expiresAt w
      = (keyIn h w account project name expiresAt, w.drawNumber.2.drawId.2, { c with
          keys := c.keys ++ (keyIn h w account project name expiresAt).toOption.toList.map
            fun issued => Issue.row [] ⟨issued, w.utcNow⟩ }) := by
  have hsame : c = { c with keys := c.keys ++ [] } := by rw [List.append_nil]
  cases account with
  | none => exact congrArg (fun d => (_, _, d)) hsame
  | some account =>
    unfold Credentials.createKey
    cases hproject : knowsProject h project with
    | false =>
      have hrefused : keyIn h w (some account) project name expiresAt = .error .constraint := by
        rw [keyIn, hproject]
        rfl
      rw [hrefused]
      dsimp only
      rw [hknows, hproject, Bool.false_and, if_neg Bool.false_ne_true]
      exact congrArg (fun d => (_, _, d)) hsame
    | true =>
      have hissued : keyIn h w (some account) project name expiresAt
          = .ok (issuedIn w account project name expiresAt) := by
        rw [keyIn, hproject]
        rfl
      have hadmits := hnew _ hissued
      unfold issuedIn at hadmits
      dsimp only at hadmits
      rw [hissued]
      dsimp only
      rw [hknows, hproject, hadmits, Bool.true_and, if_pos rfl]
      rfl

/-! ## One more call -/

/-- No project has an id that is drawn now. -/
theorem projects_any_eq_false (hsound : ∀ s ∈ h, s.Sound) (horderly : Orderly (h ++ [s]))
    (hid : id ∈ s.uniques) : (projects h).any (·.id == id) = false := by
  rw [List.any_eq_false]
  intro p hp hsame
  obtain ⟨s', hs', hproject⟩ := List.mem_filterMap.mp hp
  have hdrawn := ((hsound s' hs').project p hproject).1
  rw [beq_iff_eq.mp hsame] at hdrawn
  have hnodup := horderly.uniques
  rw [List.flatMap_append] at hnodup
  exact (List.nodup_append.mp hnodup).2.2 id (List.mem_flatMap.mpr ⟨s', hs', hdrawn⟩) id
    (List.mem_flatMap.mpr ⟨s, List.mem_singleton.mpr rfl, hid⟩) rfl

/-- No key that was issued has the id or the digest of one that is issued now. -/
theorem issues_distinct (hsound : ∀ s' ∈ h ++ [s], s'.Sound) (horderly : Orderly (h ++ [s]))
    {j : Issue} (hj : s.issue? = some j) :
    ∀ i ∈ issues h, i.key.id ≠ j.key.id ∧ i.key.digest ≠ j.key.digest := by
  have hpairs := horderly.pairwise_issues hsound
  rw [issues_snoc, hj] at hpairs
  intro i hi
  obtain ⟨hid, hdigest, -⟩ := (List.pairwise_append.mp hpairs).2.2 i hi j List.mem_cons_self
  exact ⟨hid, hdigest⟩

theorem Represents.createProject (hrep : Represents h c) (hsound : ∀ s ∈ h, s.Sound)
    {account name : Option String} (hcall : v.call = .createProject account name)
    (horderly : Orderly (h ++ [⟨v, answer h v⟩])) :
    (v.run c).1 = answer h v ∧ Represents (h ++ [⟨v, answer h v⟩]) (v.run c).2 := by
  have hanswer : answer h v = .project (projectIn v.world account name) := by rw [answer, hcall]
  have hdrawn : v.world.drawId.1 ∈ Visit.uniques v := by
    rw [Visit.uniques, hcall]
    exact List.mem_cons_self
  have hnew : c.hasProject v.world.drawId.1 = false := by
    rw [hrep.hasProject]
    exact projects_any_eq_false hsound horderly hdrawn
  have hrun : v.run c = (.project (projectIn v.world account name), { c with
      projects := c.projects
        ++ (projectIn v.world account name).toOption.toList.map Project.row }) := by
    rw [Visit.run, hcall]
    dsimp only
    rw [createProject_eq hnew]
  rw [hrun, hanswer]
  refine ⟨rfl, ?_, ?_⟩
  · have hproject : Said.project? ⟨v, .project (projectIn v.world account name)⟩
        = (projectIn v.world account name).toOption := by
      cases projectIn v.world account name <;> rfl
    rw [projects_snoc, List.map_append, hproject, hrep.projectRows]
  · have hissue : Said.issue? ⟨v, .project (projectIn v.world account name)⟩ = none := rfl
    rw [issues_snoc, hissue, Option.toList_none, List.append_nil]
    exact hrep.keyRows_snoc (fun id => by rw [Said.use?, hcall])
      fun id => by rw [Said.revokes, hcall]

/-- The table of keys admits a key that is issued now. -/
theorem Represents.admitsKey (hrep : Represents h c) {issued : IssuedKey}
    (hdistinct : ∀ i ∈ issues h, i.key.id ≠ issued.key.id ∧ i.key.digest ≠ issued.key.digest) :
    c.admitsKey issued.key.id issued.key.digest = true := by
  rw [Credentials.admitsKey, hrep.keyRows, Bool.not_eq_true', List.any_eq_false]
  intro row hrow hsame
  obtain ⟨i, hi, rfl⟩ := List.mem_map.mp hrow
  obtain ⟨hid, hdigest⟩ := hdistinct i hi
  rcases Bool.or_eq_true_iff.mp hsame with hsame | hsame
  · exact hid (beq_iff_eq.mp hsame)
  · exact hdigest (beq_iff_eq.mp hsame)

theorem Represents.createKey (hrep : Represents h c) (hsound : ∀ s ∈ h, s.Sound)
    {account project name : Option String} {expiresAt : Option DateTime}
    (hcall : v.call = .createKey account project name expiresAt)
    (horderly : Orderly (h ++ [⟨v, answer h v⟩])) :
    (v.run c).1 = answer h v ∧ Represents (h ++ [⟨v, answer h v⟩]) (v.run c).2 := by
  have hanswer : answer h v = .key (keyIn h v.world account project name expiresAt) := by
    rw [answer, hcall]
  have hsound' : ∀ s ∈ h ++ [⟨v, answer h v⟩], s.Sound := by
    rw [List.forall_mem_append, List.forall_mem_singleton]
    exact ⟨hsound, sound_answer h v⟩
  rw [hanswer] at hsound' horderly ⊢
  have hissue : Said.issue? ⟨v, .key (keyIn h v.world account project name expiresAt)⟩
      = (keyIn h v.world account project name expiresAt).toOption.map (⟨·, v.world.utcNow⟩) := by
    cases keyIn h v.world account project name expiresAt <;> rfl
  -- What the table issues is new, so the unique columns do not refuse it.
  have hdistinct {issued : IssuedKey}
      (hissued : keyIn h v.world account project name expiresAt = .ok issued) :
      ∀ i ∈ issues h, i.key.id ≠ issued.key.id ∧ i.key.digest ≠ issued.key.digest :=
    issues_distinct hsound' horderly (j := ⟨issued, v.world.utcNow⟩) (by rw [hissue, hissued]; rfl)
  have hrun : v.run c = (.key (keyIn h v.world account project name expiresAt), { c with
      keys := c.keys ++ (keyIn h v.world account project name expiresAt).toOption.toList.map
        fun issued => Issue.row [] ⟨issued, v.world.utcNow⟩ }) := by
    rw [Visit.run, hcall]
    dsimp only
    rw [createKey_eq (hrep.admitsProject project) fun issued hissued =>
      hrep.admitsKey (hdistinct hissued)]
  rw [hrun]
  refine ⟨rfl, ?_, ?_⟩
  · rw [projects_snoc]
    exact (hrep.projectRows).trans (congrArg _ (List.append_nil _).symm)
  · rw [issues_snoc, List.map_append, hissue]
    refine congrArg₂ (· ++ ·) (hrep.keyRows_snoc ?_ ?_) ?_
    · exact fun id => by rw [Said.use?, hcall]
    · exact fun id => by rw [Said.revokes, hcall]
    · cases hissued : keyIn h v.world account project name expiresAt with
      | error fault => rfl
      | ok issued =>
        refine congrArg (fun row => [row]) (Issue.row_snoc_new ?_ _).symm
        rw [List.any_eq_false]
        intro i hi hsame
        exact (hdistinct hissued i hi).1 (beq_iff_eq.mp hsame)

/-- A change of the row of one key. -/
theorem Represents.updateKey (hrep : Represents h c) (hissue : s.issue? = none)
    (hproject : s.project? = none) {target : Option String} {change : KeyRow → KeyRow}
    (hother : ∀ id, target ≠ some id → s.use? id = none ∧ s.revokes id = false)
    (hchange : ∀ i ∈ issues h, target = some i.key.id → i.row (h ++ [s]) = change (i.row h)) :
    Represents (h ++ [s]) (c.updateKey target change) where
  projectRows := by
    rw [projects_snoc, hproject, Option.toList_none, List.append_nil]
    exact hrep.projectRows
  keyRows := by
    rw [issues_snoc, hissue, Option.toList_none, List.append_nil, Credentials.updateKey,
      hrep.keyRows, List.map_map]
    refine List.map_congr_left fun i hi => ?_
    rw [Function.comp_apply, show (i.row h).id = i.key.id from rfl]
    by_cases htarget : target = some i.key.id
    · rw [if_pos (beq_iff_eq.mpr htarget.symm)]
      exact (hchange i hi htarget).symm
    · rw [if_neg fun hsame => htarget (beq_iff_eq.mp hsame).symm]
      exact (Issue.row_snoc_other hi (hother _ htarget).1 (hother _ htarget).2).symm

theorem Represents.recordUsage (hrep : Represents h c) {user : Option String}
    {time : Option DateTime} (hcall : v.call = .recordUsage user time) :
    Represents (h ++ [⟨v, .noted⟩]) (c.recordUsage user time) := by
  refine hrep.updateKey rfl rfl (fun id hne => ⟨?_, ?_⟩) fun i hi hid => ?_
  · rw [Said.use?, hcall]
    exact if_neg hne
  · rw [Said.revokes, hcall]
  · have huse : Said.use? i.key.id ⟨v, .noted⟩ = some time := by
      rw [Said.use?, hcall]
      exact if_pos hid
    have hrevokes : Said.revokes i.key.id ⟨v, .noted⟩ = false := by rw [Said.revokes, hcall]
    rw [Issue.row_snoc hi, huse, hrevokes, Option.toList_some, List.getLast?_concat,
      Option.join_some, List.length_singleton, Bool.not_false, Bool.and_true]

theorem Represents.revokeKey (hrep : Represents h c) {target : Option String}
    (hcall : v.call = .revokeKey target) (wasEnabled : Bool) :
    Represents (h ++ [⟨v, .revoked wasEnabled⟩]) (c.revokeKey target).2 := by
  refine hrep.updateKey rfl rfl (fun id hne => ⟨?_, ?_⟩) fun i hi hid => ?_
  · rw [Said.use?, hcall]
  · rw [Said.revokes, hcall]
    exact beq_eq_false_iff_ne.mpr hne
  · have huse : Said.use? i.key.id ⟨v, .revoked wasEnabled⟩ = none := by rw [Said.use?, hcall]
    have hrevokes : Said.revokes i.key.id ⟨v, .revoked wasEnabled⟩ = true := by
      rw [Said.revokes, hcall]
      exact beq_iff_eq.mpr hid
    rw [Issue.row_snoc hi, huse, hrevokes, Option.toList_none, List.append_nil, List.length_nil,
      Nat.add_zero, Bool.not_true, Bool.and_false]
    rfl

/-- What only reads leaves the tables alone. -/
theorem Represents.reads (hrep : Represents h c) (hreads : v.call.reads = true) :
    Represents (h ++ [⟨v, answer h v⟩]) c := by
  obtain ⟨w, call⟩ := v
  cases call with
  | createProject | createKey | recordUsage | revokeKey => cases hreads
  | _ => exact hrep.snoc rfl rfl (fun _ => rfl) fun _ => rfl

/-- **One call**: the store answers as the table does, and its tables go on to represent what has
been said. -/
theorem Represents.step (hrep : Represents h c) (hsound : ∀ s ∈ h, s.Sound)
    (horderly : Orderly (h ++ [⟨v, answer h v⟩])) :
    (v.run c).1 = answer h v ∧ Represents (h ++ [⟨v, answer h v⟩]) (v.run c).2 := by
  have hread (hreads : v.call.reads = true) (hrun : v.run c = (answer h v, c)) :
      (v.run c).1 = answer h v ∧ Represents (h ++ [⟨v, answer h v⟩]) (v.run c).2 := by
    rw [hrun]
    exact ⟨rfl, hrep.reads hreads⟩
  have hbefore := horderly.left
  cases hcall : v.call with
  | createProject account name => exact hrep.createProject hsound hcall horderly
  | createKey account project name expiresAt => exact hrep.createKey hsound hcall horderly
  | recordUsage user time =>
    rw [Visit.run, answer, hcall]
    exact ⟨rfl, hrep.recordUsage hcall⟩
  | revokeKey target =>
    rw [Visit.run, answer, hcall]
    exact ⟨congrArg Answer.revoked (hrep.hasEnabledKey target), hrep.revokeKey hcall _⟩
  | findByDigest digest =>
    refine hread (by rw [hcall, Call.reads]) ?_
    rw [Visit.run, answer, hcall]
    dsimp only
    rw [hrep.findByDigest hbefore hsound]
  | keysOf project =>
    refine hread (by rw [hcall, Call.reads]) ?_
    rw [Visit.run, answer, hcall]
    dsimp only
    rw [hrep.keysOf hbefore hsound]
  | projectsOf account =>
    refine hread (by rw [hcall, Call.reads]) ?_
    rw [Visit.run, answer, hcall]
    dsimp only
    rw [hrep.projectsOf hbefore hsound]
  | projectIdsOf account =>
    refine hread (by rw [hcall, Call.reads]) ?_
    rw [Visit.run, answer, hcall]
    dsimp only
    rw [hrep.projectIdsOf hbefore hsound]

/-! ## A whole conversation -/

theorem represents_empty (persistent : Bool) : Represents [] (.empty persistent) := ⟨rfl, rfl⟩

/-- However long it is talked to, the store answers as the table does. -/
theorem Represents.converse (hrep : Represents h c) (hsound : ∀ s ∈ h, s.Sound)
    (visits : List Visit) (horderly : Orderly (follow h visits)) :
    h ++ converse visits c = follow h visits := by
  induction visits generalizing h c with
  | nil => exact List.append_nil h
  | cons v others ih =>
    -- What is in order at the end was in order all along.
    obtain ⟨later, hlater⟩ := exists_follow (h ++ [⟨v, answer h v⟩]) others
    have hnow : Orderly (h ++ [⟨v, answer h v⟩]) := by
      rw [follow, hlater] at horderly
      exact horderly.left
    have hsound' : ∀ s ∈ h ++ [⟨v, answer h v⟩], s.Sound := by
      rw [List.forall_mem_append, List.forall_mem_singleton]
      exact ⟨hsound, sound_answer h v⟩
    obtain ⟨hanswer, hnext⟩ := hrep.step hsound hnow
    rw [Store.converse, hanswer, follow, ← ih hnext hsound' horderly, List.append_assoc]
    rfl

/-- **The store is a table of keys.** -/
theorem converse_eq_follow (persistent : Bool) (visits : List Visit)
    (horderly : Orderly (follow [] visits)) :
    converse visits (.empty persistent) = follow [] visits ∧ Tabulated (follow [] visits) :=
  ⟨(represents_empty persistent).converse (fun _ hs => absurd hs List.not_mem_nil) visits horderly,
    tabulated_follow visits horderly⟩

/-- A second after the start of 1970, where some identifiers have been drawn already. -/
def aSecondLater (drawn : Nat) : World :=
  ⟨⟨Time.epoch + Time.second, by decide, some .utc⟩, .zero, .zero, drawn⟩

/-- A project with a key that is used, revoked twice and looked up, another key, and a key that is
refused because its project does not exist. -/
def lifeOfKey : List Visit := [
  ⟨Credentials.start, .createProject (some "account") (some "web")⟩,
  ⟨aSecondLater 1, .createKey (some "account") (some (uniqueText 1)) (some "ci")
    (some Credentials.lastSecond)⟩,
  ⟨aSecondLater 3, .createKey (some "account") (some "nowhere") none none⟩,
  ⟨aSecondLater 5, .createKey (some "account") none none none⟩,
  ⟨aSecondLater 7, .recordUsage (some (uniqueText 3)) (some (aSecondLater 7).now)⟩,
  ⟨aSecondLater 7, .revokeKey (some (uniqueText 3))⟩,
  ⟨aSecondLater 7, .revokeKey (some (uniqueText 3))⟩,
  ⟨aSecondLater 7, .findByDigest (some (Token.digest (Token.mark ++ String.ofList (uniqueHex 2))))⟩,
  ⟨aSecondLater 7, .keysOf (some (uniqueText 1))⟩]

theorem converse_eq_follow_lifeOfKey : Orderly (follow [] lifeOfKey) ∧
    converse lifeOfKey (.empty false) = follow [] lifeOfKey ∧ Tabulated (follow [] lifeOfKey) := by
  have horderly : Orderly (follow [] lifeOfKey) := by
    constructor
    · decide +kernel
    · decide +kernel
    · decide +kernel
    · decide +kernel
  exact ⟨horderly, converse_eq_follow false lifeOfKey horderly⟩

end Telemetry.Store
