import Telemetry.Proofs.Store.History

/-!
# The table of keys

What the table answers that a history makes, if identifiers are drawn once, issued tokens have
digests of their own, and the clock does not go back: every issued key is found under its digest, as
it was issued and as it stands, and not under its token; it can be revoked once; and nothing that is
done to one key shows in another.

Main statement: `tabulated_follow`.
-/

namespace Telemetry.Store

open Time (DateTime)

open History

variable {h : History} {s : Said} {v : Visit} {i : Issue}

/-! ## What was drawn -/

/-- An issued key has the identifiers that the call drew, and the digest and the start of its
token. -/
structure Drawn (v : Visit) (i : Issue) : Prop where
  id : i.key.id ∈ v.uniques
  token : ∃ n, uniqueText n ∈ v.uniques ∧ i.token = Token.mark ++ String.ofList (uniqueHex n)
  digest : i.key.digest = Token.digest i.token
  start : i.key.start = Token.start i.token
  expiry : ∀ t, i.key.expiresAt = some t → t ∈ v.times

theorem drawn_issuedIn (v : Visit) {account : String} {project name : Option String}
    {expiresAt : Option DateTime}
    (hcall : v.call = .createKey (some account) project name expiresAt)
    (time : DateTime) : Drawn v ⟨issuedIn v.world account project name expiresAt, time⟩ := by
  have huniques : v.uniques = [uniqueText v.world.drawNumber.1, v.world.drawNumber.2.drawId.1] := by
    rw [Visit.uniques, hcall]
  have htimes : v.times = expiresAt.toList := by rw [Visit.times, hcall]
  refine ⟨?_, ⟨v.world.drawNumber.1, ?_, rfl⟩, rfl, rfl, fun t ht => ?_⟩
  · rw [huniques]
    exact List.mem_cons_of_mem _ List.mem_cons_self
  · rw [huniques]
    exact List.mem_cons_self
  · rw [htimes, show expiresAt = some t from ht]
    exact List.mem_cons_self

/-- A project is made just if it has an account and a name. -/
theorem projectIn_cases (w : World) (account name : Option String) :
    projectIn w account name = .error .constraint ∨ ∃ project,
      projectIn w account name = .ok project ∧ project.id = w.drawId.1 ∧
        project.createdAt = w.utcNow := by
  cases account with
  | none => exact .inl rfl
  | some account =>
    cases name with
    | none => exact .inl rfl
    | some name => exact .inr ⟨_, rfl, rfl, rfl⟩

/-- A key is issued just if it has an account and its project is known. -/
theorem keyIn_cases (h : History) (w : World) (account project name : Option String)
    (expiresAt : Option DateTime) :
    keyIn h w account project name expiresAt = .error .constraint ∨ ∃ owner,
      account = some owner ∧ knowsProject h project = true ∧
        keyIn h w account project name expiresAt
          = .ok (issuedIn w owner project name expiresAt) := by
  cases account with
  | none => exact .inl rfl
  | some owner =>
    unfold keyIn
    cases hknows : knowsProject h project with
    | false => exact .inl rfl
    | true => exact .inr ⟨owner, rfl, rfl, rfl⟩

/-- What was issued and made is what the call drew. -/
structure Said.Sound (s : Said) : Prop where
  issue : ∀ i, s.issue? = some i → Drawn s.toVisit i ∧ i.time = s.world.utcNow
  project : ∀ p, s.project? = some p →
    p.id ∈ s.uniques ∧ p.createdAt = s.world.utcNow ∧ p.createdAt ∈ s.times

/-- What the table issues is what the call drew. -/
theorem sound_answer (h : History) (v : Visit) : Said.Sound ⟨v, answer h v⟩ := by
  cases hcall : v.call with
  | createProject account name =>
    have hanswer : answer h v = .project (projectIn v.world account name) := by rw [answer, hcall]
    have huniques : v.uniques = [v.world.drawId.1] := by rw [Visit.uniques, hcall]
    have htimes : v.times = [v.world.utcNow] := by rw [Visit.times, hcall]
    rw [hanswer]
    refine ⟨fun i hi => (by cases hi), fun p hp => ?_⟩
    rcases projectIn_cases v.world account name with hnone | ⟨project, hmade, hid, htime⟩
    · rw [hnone] at hp
      cases hp
    · rw [hmade] at hp
      cases hp
      rw [huniques, htimes, hid, htime]
      exact ⟨List.mem_cons_self, rfl, List.mem_cons_self⟩
  | createKey account project name expiresAt =>
    have hanswer : answer h v = .key (keyIn h v.world account project name expiresAt) := by
      rw [answer, hcall]
    rw [hanswer]
    refine ⟨fun i hi => ?_, fun p hp => (by cases hp)⟩
    rcases keyIn_cases h v.world account project name expiresAt with hnone | ⟨owner, rfl, -, hmade⟩
    · rw [hnone] at hi
      cases hi
    · rw [hmade] at hi
      cases hi
      exact ⟨drawn_issuedIn v hcall _, rfl⟩
  | _ =>
    rw [answer, hcall]
    exact ⟨fun i hi => (by cases hi), fun p hp => (by cases hp)⟩

theorem sound_follow (visits : List Visit) : ∀ s ∈ follow [] visits, s.Sound := by
  refine follow_kept (P := fun h => ∀ s ∈ h, s.Sound) ?_ visits
    fun s hs => absurd hs List.not_mem_nil
  intro h v hall
  rw [List.forall_mem_append, List.forall_mem_singleton]
  exact ⟨hall, sound_answer h v⟩

/-! ## In order -/

theorem uniqueText_of_token {m n : Nat} (h : Token.mark ++ String.ofList (uniqueHex m)
    = Token.mark ++ String.ofList (uniqueHex n)) : uniqueText m = uniqueText n := by
  have hhex : uniqueHex m = uniqueHex n := by
    have hlist := congrArg String.toList h
    rw [String.toList_append, String.toList_append, String.toList_ofList, String.toList_ofList]
      at hlist
    exact List.append_cancel_left hlist
  unfold uniqueText
  rw [hhex]

/-- What two calls said one after the other drew is different, and in the order of the clock. -/
theorem Orderly.pairwise (horderly : Orderly h) (hsound : ∀ s ∈ h, s.Sound) :
    h.Pairwise fun s s' => s.Sound ∧ s'.Sound ∧ s.uniques.Disjoint s'.uniques ∧
      s.world.now.instant ≤ s'.world.now.instant := by
  have hdisjoint := (List.nodup_flatMap.mp horderly.uniques).2
  refine (List.pairwise_iff_forall_sublist.mpr fun {s s'} hsub => ?_)
  have hs : s ∈ h := hsub.subset List.mem_cons_self
  have hs' : s' ∈ h := hsub.subset (List.mem_cons_of_mem _ List.mem_cons_self)
  exact ⟨hsound s hs, hsound s' hs',
    List.pairwise_iff_forall_sublist.mp hdisjoint hsub,
    List.pairwise_iff_forall_sublist.mp horderly.clock hsub⟩

theorem instant_utcNow (w : World) : w.utcNow.instant = w.now.instant := by
  unfold World.utcNow DateTime.toUtc?
  cases htime : DateTime.ofWall? w.now.instant (some .utc) with
  | none => rfl
  | some t => exact (DateTime.instant_of_ofWall? htime).1

/-- No two keys share an id or a digest, and they were issued one after the other. -/
theorem Orderly.pairwise_issues (horderly : Orderly h) (hsound : ∀ s ∈ h, s.Sound) :
    (issues h).Pairwise fun i j => i.key.id ≠ j.key.id ∧ i.key.digest ≠ j.key.digest ∧
      i.time.instant ≤ j.time.instant := by
  have hpairs : (issues h).Pairwise fun i j => i.key.id ≠ j.key.id ∧ i.token ≠ j.token ∧
      i.key.digest = Token.digest i.token ∧ j.key.digest = Token.digest j.token ∧
      i.time.instant ≤ j.time.instant := by
    refine List.pairwise_filterMap.mpr ((horderly.pairwise hsound).imp ?_)
    rintro s s' ⟨hs, hs', hdisjoint, hclock⟩ i hi j hj
    obtain ⟨hi, hitime⟩ := hs.issue i hi
    obtain ⟨hj, hjtime⟩ := hs'.issue j hj
    refine ⟨fun hid => ?_, fun htoken => ?_, hi.digest, hj.digest, ?_⟩
    · have hid' := hi.id
      rw [hid] at hid'
      exact hdisjoint hid' hj.id
    · -- One token would have been made of one identifier.
      obtain ⟨m, hm, him⟩ := hi.token
      obtain ⟨n, hn, hjn⟩ := hj.token
      rw [him, hjn] at htoken
      rw [uniqueText_of_token htoken] at hm
      exact hdisjoint hm hn
    · rw [hitime, hjtime, instant_utcNow, instant_utcNow]
      exact hclock
  refine List.pairwise_iff_forall_sublist.mpr fun {i j} hsub => ?_
  obtain ⟨hid, htoken, hi, hj, htime⟩ := List.pairwise_iff_forall_sublist.mp hpairs hsub
  refine ⟨hid, fun hdigest => htoken ?_, htime⟩
  have hmem := hsub.subset
  rw [hi, hj] at hdigest
  exact horderly.digests i (hmem List.mem_cons_self) j
    (hmem (List.mem_cons_of_mem _ List.mem_cons_self)) hdigest

/-- No two projects share an id, and they were made one after the other. -/
theorem Orderly.pairwise_projects (horderly : Orderly h) (hsound : ∀ s ∈ h, s.Sound) :
    (projects h).Pairwise fun p q => p.id ≠ q.id ∧ p.createdAt.instant ≤ q.createdAt.instant := by
  refine List.pairwise_filterMap.mpr ((horderly.pairwise hsound).imp ?_)
  rintro s s' ⟨hs, hs', hdisjoint, hclock⟩ p hp q hq
  obtain ⟨hpid, hptime, -⟩ := hs.project p hp
  obtain ⟨hqid, hqtime, -⟩ := hs'.project q hq
  refine ⟨fun hid => ?_, ?_⟩
  · rw [hid] at hpid
    exact hdisjoint hpid hqid
  rw [hptime, hqtime, instant_utcNow, instant_utcNow]
  exact hclock

/-! ## What the table answers -/

theorem length_hexDigits (width n : Nat) : (Text.hexDigits width n).length = width := by
  induction width generalizing n with
  | zero => rfl
  | succ width ih => rw [Text.hexDigits, List.length_append, ih, List.length_singleton]

theorem length_digest (token : String) : (Token.digest token).toList.length = 64 := by
  unfold Token.digest Digest.Sha256.hexDigest
  simp only [String.toList_ofList, List.flatMap_cons, List.flatMap_nil, List.length_append,
    length_hexDigits, List.length_nil]

/-- What the answers in a history come to: each is the table's, after what was said before. A key
shows the first eight characters of its token. It is found under the digest of the token, as it was
issued and as it stands, and not under the token. It is revoked once, and what is not known is not
revoked. What is said of other keys makes no difference to it. -/
structure Tabulated (h : History) : Prop where
  answered : Answered h
  start : ∀ i ∈ issues h, i.key.start.toList = i.token.toList.take 8 ∧
    i.key.start.toList.length = 8
  found : ∀ before s after, h = before ++ s :: after → ∀ i ∈ issues before,
    s.call = .findByDigest (some (Token.digest i.token)) →
      s.answer = .found (.ok (some (keyNow before i.key)))
  hidden : ∀ before s after, h = before ++ s :: after → ∀ i ∈ issues h,
    s.call = .findByDigest (some i.token) → s.answer = .found (.ok none)
  revoked : ∀ id, revocations id h = (isRevoked id h).toNat
  unknown : ∀ before s after, h = before ++ s :: after → ∀ id,
    (∀ i ∈ issues before, id ≠ some i.key.id) → s.call = .revokeKey id → s.answer = .revoked false
  untouched : ∀ before s between s' after, h = before ++ s :: between ++ s' :: after →
    ∀ i ∈ issues before, s.call = .findByDigest (some (Token.digest i.token)) → s'.call = s.call →
      (∀ m ∈ between, m.use? i.key.id = none ∧ m.revokes i.key.id = false) → s'.answer = s.answer

theorem length_token (hi : Drawn v i) : i.token.toList.length = 35 := by
  obtain ⟨n, -, htoken⟩ := hi.token
  rw [htoken, String.toList_append, List.length_append, String.toList_ofList, uniqueHex,
    length_hexDigits]
  rfl

theorem exists_drawn (hsound : ∀ s ∈ h, s.Sound) (hi : i ∈ issues h) : ∃ v, Drawn v i := by
  obtain ⟨s, hs, hissue⟩ := List.mem_filterMap.mp hi
  exact ⟨_, ((hsound s hs).issue i hissue).1⟩

theorem start_of_sound (hsound : ∀ s ∈ h, s.Sound) (hi : i ∈ issues h) :
    i.key.start.toList = i.token.toList.take 8 ∧ i.key.start.toList.length = 8 := by
  obtain ⟨v, hdrawn⟩ := exists_drawn hsound hi
  have hstart : i.key.start.toList = i.token.toList.take 8 := by
    rw [hdrawn.start, Token.start, String.toList_ofList]
  refine ⟨hstart, ?_⟩
  rw [hstart, List.length_take, length_token hdrawn]
  rfl

/-- A key is the only one with its digest. -/
theorem find?_digest (horderly : Orderly h) (hsound : ∀ s ∈ h, s.Sound) (hi : i ∈ issues h) :
    ((issues h).find? fun j => some j.key.digest == some i.key.digest) = some i := by
  cases hfind : (issues h).find? fun j => some j.key.digest == some i.key.digest with
  | none => exact absurd (beq_iff_eq.mpr rfl) (List.find?_eq_none.mp hfind i hi)
  | some j =>
    have hdigest := List.find?_some hfind
    have hsame : j.key.digest = i.key.digest := Option.some.inj (beq_iff_eq.mp hdigest)
    have hnodup : ((issues h).map (·.key.digest)).Nodup :=
      List.pairwise_map.mpr ((horderly.pairwise_issues hsound).imp fun hpair => hpair.2.1)
    rw [List.inj_on_of_nodup_map hnodup (List.mem_of_find?_eq_some hfind) hi hsame]

/-- A text that is not as long as a digest finds no key. -/
theorem find?_other_length (hsound : ∀ s ∈ h, s.Sound) {text : String}
    (htext : text.toList.length ≠ 64) :
    ((issues h).find? fun j => some j.key.digest == some text) = none := by
  refine List.find?_eq_none.mpr fun j hj hsame => htext ?_
  obtain ⟨v, hdrawn⟩ := exists_drawn hsound hj
  rw [← Option.some.inj (beq_iff_eq.mp hsame), hdrawn.digest]
  exact length_digest j.token

/-- A history that the table has answered, with identifiers, times and digests in order. -/
structure Settled (h : History) : Prop where
  answered : Answered h
  orderly : Orderly h
  sound : ∀ s ∈ h, s.Sound

section Settled

variable {before between after : History} {s' : Said}

theorem Settled.orderly_before (hsettled : Settled h) (hsplit : h = before ++ after) :
    Orderly before := by
  have horderly := hsettled.orderly
  rw [hsplit] at horderly
  exact horderly.left

theorem Settled.sound_before (hsettled : Settled h) (hsplit : h = before ++ after) :
    ∀ s ∈ before, s.Sound := by
  intro s hs
  refine hsettled.sound s ?_
  rw [hsplit]
  exact List.mem_append_left _ hs

theorem Settled.found (hsettled : Settled h) (hsplit : h = before ++ s :: after)
    (hi : i ∈ issues before) (hcall : s.call = .findByDigest (some (Token.digest i.token))) :
    s.answer = .found (.ok (some (keyNow before i.key))) := by
  have hsound := hsettled.sound_before hsplit
  obtain ⟨v, hdrawn⟩ := exists_drawn hsound hi
  rw [hsettled.answered before s after hsplit, answer, hcall, ← hdrawn.digest]
  dsimp only
  rw [find?_digest (hsettled.orderly_before hsplit) hsound hi]
  rfl

theorem Settled.hidden (hsettled : Settled h) (hsplit : h = before ++ s :: after)
    (hi : i ∈ issues h) (hcall : s.call = .findByDigest (some i.token)) :
    s.answer = .found (.ok none) := by
  obtain ⟨v, hdrawn⟩ := exists_drawn hsettled.sound hi
  -- A token has 35 characters and a digest 64.
  have hlength : i.token.toList.length ≠ 64 := by
    rw [length_token hdrawn]
    decide
  rw [hsettled.answered before s after hsplit, answer, hcall]
  dsimp only
  rw [find?_other_length (hsettled.sound_before hsplit) hlength]
  rfl

theorem Settled.unknown (hsettled : Settled h) (hsplit : h = before ++ s :: after)
    {target : Option String} (hnone : ∀ i ∈ issues before, target ≠ some i.key.id)
    (hcall : s.call = .revokeKey target) : s.answer = .revoked false := by
  rw [hsettled.answered before s after hsplit, answer, hcall]
  refine congrArg Answer.revoked (List.any_eq_false.mpr fun i hi hboth => hnone i hi ?_)
  exact (beq_iff_eq.mp (Bool.and_eq_true_iff.mp hboth).1).symm

theorem Settled.untouched (hsettled : Settled h)
    (hsplit : h = before ++ s :: between ++ s' :: after) (hi : i ∈ issues before)
    (hcall : s.call = .findByDigest (some (Token.digest i.token))) (hsame : s'.call = s.call)
    (hother : ∀ m ∈ between, m.use? i.key.id = none ∧ m.revokes i.key.id = false) :
    s'.answer = s.answer := by
  have hearly : h = before ++ s :: (between ++ s' :: after) := by
    rw [hsplit, List.append_assoc]
    rfl
  have hstill : i ∈ issues (before ++ s :: between) := by
    rw [issues, List.filterMap_append]
    exact List.mem_append_left _ hi
  have hissued : (issues before).any (·.key.id == i.key.id) = true :=
    List.any_eq_true.mpr ⟨i, hi, beq_iff_eq.mpr rfl⟩
  have hkey : keyNow (before ++ s :: between) i.key = keyNow before i.key := by
    refine keyNow_append hissued fun m hm => ?_
    rcases List.mem_cons.mp hm with rfl | hm
    · exact ⟨by rw [Said.use?, hcall], by rw [Said.revokes, hcall]⟩
    · exact hother m hm
  rw [hsettled.found hearly hi hcall, hsettled.found hsplit hstill (hsame.trans hcall), hkey]

end Settled

/-- **The table does what is expected of it.** -/
theorem tabulated_follow (visits : List Visit) (horderly : Orderly (follow [] visits)) :
    Tabulated (follow [] visits) := by
  have hsettled : Settled (follow [] visits) :=
    ⟨answered_follow visits, horderly, sound_follow visits⟩
  exact {
    answered := hsettled.answered
    start := fun i hi => start_of_sound hsettled.sound hi
    found := fun before s after hsplit i hi hcall => hsettled.found hsplit hi hcall
    hidden := fun before s after hsplit i hi hcall => hsettled.hidden hsplit hi hcall
    revoked := fun id => revocations_follow id visits
    unknown := fun before s after hsplit target hnone hcall =>
      hsettled.unknown hsplit hnone hcall
    untouched := fun before s between s' after hsplit i hi hcall hsame hother =>
      hsettled.untouched hsplit hi hcall hsame hother }

end Telemetry.Store
