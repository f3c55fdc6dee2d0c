import Mathlib.Logic.Relation
import Telemetry.Proofs.Items
import Telemetry.Proofs.Time.Epoch
import Telemetry.Store.Credentials

/-!
# Keys that can be read back with their expiry

A key that has been issued is found by its digest, and listed with the keys of its project, from
then on; what its expiry has become on the way through the table is the question. It comes back just
if the nearest double determines it to the microsecond. If it does not, the key is found with
another expiry, or reading its row fails, and with it every listing that the row is part of.

Main statement: `gives_back_iff`.
-/

namespace Telemetry.Store

open Time (DateTime)

/-! ## Rows that can be read -/

/-- The key of a row can be read. -/
def KeyRow.Readable (row : KeyRow) : Prop := ∃ key, row.toKey = .ok key

/-- The optional time can be read once it has been written. -/
def Legible (time : Option DateTime) : Prop :=
  ∃ back, readOptionalTime (time.map DateTime.toEpoch) = .ok back

theorem legible_none : Legible none := ⟨none, rfl⟩

theorem readOptionalTime_of_ofEpoch? {seconds : Double} {u : DateTime}
    (h : DateTime.ofEpoch? seconds = some u) : readOptionalTime (some seconds) = .ok (some u) := by
  simp only [readOptionalTime, readColumnTime, h]
  rfl

theorem ofEpoch?_of_readOptionalTime {seconds : Double} {u : DateTime}
    (h : readOptionalTime (some seconds) = .ok (some u)) : DateTime.ofEpoch? seconds = some u := by
  simp only [readOptionalTime, readColumnTime] at h
  split at h
  · rename_i v hv
    cases h
    exact hv
  · cases h

theorem readOptionalTime_of_none {seconds : Double} (h : DateTime.ofEpoch? seconds = none) :
    readOptionalTime (some seconds) = .error .badValue := by
  simp only [readOptionalTime, readColumnTime, h]
  rfl

/-- A row is read just if both its times are. -/
theorem KeyRow.readable_iff {row : KeyRow} :
    row.Readable ↔ (∃ back, readOptionalTime row.expiresAt = .ok back) ∧
      ∃ back, readOptionalTime row.lastRequest = .ok back := by
  constructor
  · rintro ⟨key, hkey⟩
    obtain ⟨expiry, hexpiry, hkey⟩ := bind_eq_ok hkey
    obtain ⟨last, hlast, -⟩ := bind_eq_ok hkey
    exact ⟨⟨expiry, hexpiry⟩, last, hlast⟩
  · rintro ⟨⟨expiry, hexpiry⟩, last, hlast⟩
    unfold KeyRow.Readable KeyRow.toKey
    rw [hexpiry, hlast]
    exact ⟨_, rfl⟩

theorem KeyRow.toKey_eq_ok {row : KeyRow} {key : Key} (h : row.toKey = .ok key) :
    readOptionalTime row.expiresAt = .ok key.expiresAt ∧ key.id = row.id ∧
      key.enabled = row.enabled := by
  obtain ⟨expiry, hexpiry, h⟩ := bind_eq_ok h
  obtain ⟨last, -, h⟩ := bind_eq_ok h
  cases h
  exact ⟨hexpiry, rfl, rfl⟩

namespace Credentials

variable {c c' d e : Credentials} {w w' : World} {account project name : Option String}
  {expiresAt : Option DateTime} {expiry : DateTime} {issued : IssuedKey} {key : Key}

/-- All keys can be read. -/
def Readable (c : Credentials) : Prop := ∀ row ∈ c.keys, row.Readable

/-- A listing has the key of each row of a project, and no others. -/
def Lists (c : Credentials) (project : String) (keys : List Key) : Prop :=
  ∃ rows : List KeyRow, rows.Perm (c.keys.filter fun row => row.project == some project) ∧
    rows.map KeyRow.toKey = keys.map Except.ok

theorem Readable.keysOf (h : c.Readable) (project : String) :
    ∃ keys, c.keysOf (some project) = .ok keys ∧ c.Lists project keys := by
  have hperm := List.mergeSort_perm (c.keys.filter fun row => row.project == some project)
    fun a b => a.createdAt.le b.createdAt
  obtain ⟨keys, hkeys⟩ := exists_mapM_eq_ok_iff.mpr fun row hrow =>
    h row (List.mem_filter.mp (hperm.mem_iff.mp hrow)).1
  refine ⟨keys, ?_, _, hperm, mapM_eq_ok_iff.mp hkeys⟩
  unfold Credentials.keysOf
  simp only [Option.isSome_some, Bool.true_and]
  exact hkeys

/-- One row that cannot be read is enough for the listing of its project to fail. -/
theorem readable_of_keysOf {project : String} {keys : List Key} {row : KeyRow}
    (h : c.keysOf (some project) = .ok keys) (hrow : row ∈ c.keys)
    (hproject : row.project = some project) : row.Readable := by
  refine exists_mapM_eq_ok_iff.mp ⟨keys, h⟩ row ?_
  have hperm := List.mergeSort_perm
    (c.keys.filter fun row => (some project).isSome && row.project == some project)
    fun a b => a.createdAt.le b.createdAt
  refine hperm.mem_iff.mpr (List.mem_filter.mpr ⟨hrow, ?_⟩)
  rw [hproject]
  simp

/-! ## Issuing a key -/

/-- The row of an issued key is new, and says what the key says. -/
structure Issued (c : Credentials) (project : Option String) (expiresAt : Option DateTime)
    (key : Key) (row : KeyRow) : Prop where
  id : row.id = key.id
  project : row.project = project
  digest : row.digest = key.digest
  fresh : ∀ other ∈ c.keys, other.digest ≠ key.digest
  keyEnabled : key.enabled = true
  enabled : row.enabled = true
  keyExpiry : key.expiresAt = expiresAt
  expiry : row.expiresAt = expiresAt.map DateTime.toEpoch
  unused : row.lastRequest = none

/-- Issuing a key fails and leaves the table alone, or adds one row at its end. -/
theorem createKey_cases (account project name : Option String) (expiresAt : Option DateTime)
    (w : World) (c : Credentials) :
    (∃ fault w', c.createKey account project name expiresAt w = (.error fault, w', c)) ∨
    ∃ issued w' row, Issued c project expiresAt issued.key row ∧
      c.createKey account project name expiresAt w
        = (.ok issued, w', { c with keys := c.keys ++ [row] }) := by
  unfold createKey
  dsimp only
  split
  · exact Or.inl ⟨_, _, rfl⟩
  · split
    · rename_i hadmits
      refine Or.inr ⟨_, _, _, ⟨rfl, rfl, rfl, ?_, rfl, rfl, rfl, rfl, rfl⟩, rfl⟩
      intro other hother hsame
      have hnone := (Bool.and_eq_true_iff.mp hadmits).2
      unfold admitsKey at hnone
      rw [Bool.not_eq_true', List.any_eq_false] at hnone
      exact hnone other hother (Bool.or_eq_true_iff.mpr (Or.inr (beq_iff_eq.mpr hsame)))
    · exact Or.inl ⟨_, _, rfl⟩

/-! ## Later -/

/-- What may happen to the table between issuing a key and reading it: anything that leaves the key
enabled, and notes no time of its use that cannot be read. -/
inductive Step (id : String) : Credentials → Credentials → Prop
  | createProject (c : Credentials) (account name : Option String) (w : World) :
    Step id c (c.createProject account name w).2.2
  | createKey (c : Credentials) (account project name : Option String)
      (expiresAt : Option DateTime) (w : World) :
    Step id c (c.createKey account project name expiresAt w).2.2
  | recordUsage (c : Credentials) {user : Option String} {time : Option DateTime}
      (h : user = some id → Legible time) : Step id c (c.recordUsage user time)
  | revokeKey (c : Credentials) {revoked : Option String} (h : revoked ≠ some id) :
    Step id c (c.revokeKey revoked).2
  | close {c : Credentials} (h : c.persistent = true) : Step id c c.close

/-- Any number of steps later. -/
def Later (id : String) : Credentials → Credentials → Prop := Relation.ReflTransGen (Step id)

/-- A row is a key's, enabled, with the expiry that was written, and with a time of use that can be
read. -/
structure KeptRow (key : Key) (seconds : Option Double) (row : KeyRow) : Prop where
  id : row.id = key.id
  digest : row.digest = key.digest
  enabled : row.enabled = true
  expiry : row.expiresAt = seconds
  used : ∃ back, readOptionalTime row.lastRequest = .ok back

/-- The row of a key is kept, and is the only one with its digest. -/
def Holds (key : Key) (seconds : Option Double) (c : Credentials) : Prop :=
  ∃ row ∈ c.keys, KeptRow key seconds row ∧
    ∀ other ∈ c.keys, other.digest = key.digest → other = row

variable {seconds : Option Double}

theorem Issued.holds {row : KeyRow} (h : Issued c project expiresAt key row) :
    Holds key (expiresAt.map DateTime.toEpoch) { c with keys := c.keys ++ [row] } := by
  refine ⟨row, List.mem_append_right _ List.mem_cons_self,
    ⟨h.id, h.digest, h.enabled, h.expiry, ?_⟩, fun other hother hsame => ?_⟩
  · rw [h.unused]
    exact legible_none
  · rcases List.mem_append.mp hother with hother | hother
    · exact absurd hsame (h.fresh other hother)
    · exact List.mem_singleton.mp hother

theorem Holds.congr (h : Holds key seconds c) (hkeys : d.keys = c.keys) : Holds key seconds d := by
  unfold Holds
  rw [hkeys]
  exact h

theorem Holds.createKey (h : Holds key seconds c) (account project name : Option String)
    (expiresAt : Option DateTime) (w : World) :
    Holds key seconds (c.createKey account project name expiresAt w).2.2 := by
  rcases createKey_cases account project name expiresAt w c with
    ⟨fault, w', hrun⟩ | ⟨issued, w', added, hissued, hrun⟩
  · rw [hrun]
    exact h
  · rw [hrun]
    obtain ⟨row, hrow, hkept, hunique⟩ := h
    refine ⟨row, List.mem_append_left _ hrow, hkept, fun other hother hsame => ?_⟩
    rcases List.mem_append.mp hother with hother | hother
    · exact hunique other hother hsame
    · -- The digest of the added row is not the one that is there already.
      rw [List.mem_singleton.mp hother, hissued.digest, ← hkept.digest] at hsame
      exact absurd hsame.symm (hissued.fresh row hrow)

theorem Holds.createProject (h : Holds key seconds c) (account name : Option String) (w : World) :
    Holds key seconds (c.createProject account name w).2.2 := by
  refine h.congr ?_
  unfold Credentials.createProject
  dsimp only
  split
  · split <;> rfl
  · rfl

/-- A change of rows is harmless to a key if it keeps digests, and the key's row if it is meant. -/
theorem Holds.updateKey {target : Option String} {change : KeyRow → KeyRow}
    (h : Holds key seconds c) (hdigest : ∀ row, (change row).digest = row.digest)
    (hchange : target = some key.id → ∀ row, KeptRow key seconds row →
      KeptRow key seconds (change row)) : Holds key seconds (c.updateKey target change) := by
  obtain ⟨row, hrow, hkept, hunique⟩ := h
  refine ⟨_, List.mem_map.mpr ⟨row, hrow, rfl⟩, ?_, fun other hother hsame => ?_⟩
  · split
    · rename_i hmatch
      exact hchange (by rw [← hkept.id, beq_iff_eq.mp hmatch]) row hkept
    · exact hkept
  · obtain ⟨old, hold, rfl⟩ := List.mem_map.mp hother
    have hdigests : old.digest = key.digest := by
      split at hsame
      · rw [← hdigest]
        exact hsame
      · exact hsame
    rw [hunique old hold hdigests]

theorem Holds.recordUsage {user : Option String} {time : Option DateTime}
    (h : Holds key seconds c) (htime : user = some key.id → Legible time) :
    Holds key seconds (c.recordUsage user time) := by
  refine h.updateKey (fun _ => rfl) fun huser row hkept => ?_
  exact ⟨hkept.id, hkept.digest, hkept.enabled, hkept.expiry, htime huser⟩

theorem Holds.revokeKey {revoked : Option String} (h : Holds key seconds c)
    (hrevoked : revoked ≠ some key.id) : Holds key seconds (c.revokeKey revoked).2 :=
  h.updateKey (fun _ => rfl) fun hkey => absurd hkey hrevoked

theorem Holds.step (h : Holds key seconds c) (hstep : Step key.id c d) : Holds key seconds d := by
  cases hstep with
  | createProject account name w => exact h.createProject account name w
  | createKey account project name expiresAt w => exact h.createKey account project name expiresAt w
  | recordUsage htime => exact h.recordUsage htime
  | revokeKey hrevoked => exact h.revokeKey hrevoked
  | close hpersistent =>
    refine h.congr ?_
    unfold Credentials.close
    rw [if_pos hpersistent]

theorem Holds.later (h : Holds key seconds c) (hlater : Later key.id c d) : Holds key seconds d := by
  induction hlater with
  | refl => exact h
  | tail _ hstep ih => exact ih.step hstep

/-! ## Reading it back -/

/-- A key is found by its digest with the instant at which it was said to expire, and usable exactly
when it was said to be; and it breaks no listing: if the other keys can be read, every project's keys
are listed, all of them. -/
structure GivesBack (key : Key) (expiry : DateTime) (c : Credentials) : Prop where
  found : ∃ found expires, c.findByDigest (some key.digest) = .ok (some found) ∧
    found.id = key.id ∧ found.expiresAt = some expires ∧ expires.instant = expiry.instant ∧
    ∀ now : DateTime, now.isAware = true → found.isUsable now = key.isUsable now
  listed : (∀ row ∈ c.keys, row.digest ≠ key.digest → row.Readable) →
    ∀ project, ∃ keys, c.keysOf (some project) = .ok keys ∧ c.Lists project keys

theorem Holds.find? (h : Holds key seconds c) :
    ∃ row, c.findByDigest (some key.digest) = row.toKey.map some ∧ KeptRow key seconds row ∧
      ((∀ other ∈ c.keys, other.digest ≠ key.digest → other.Readable) → row.Readable →
        c.Readable) := by
  obtain ⟨row, hrow, hkept, hunique⟩ := h
  refine ⟨row, ?_, hkept, fun hothers hreadable other hother => ?_⟩
  · unfold findByDigest
    cases hfind : c.keys.find? fun row => some row.digest == some key.digest with
    | none =>
      have hnot := List.find?_eq_none.mp hfind row hrow
      rw [hkept.digest] at hnot
      simp at hnot
    | some found =>
      have hdigest := List.find?_some hfind
      rw [hunique found (List.mem_of_find?_eq_some hfind)
        (Option.some.inj (beq_iff_eq.mp hdigest))]
  · by_cases hsame : other.digest = key.digest
    · rw [hunique other hother hsame]
      exact hreadable
    · exact hothers other hother hsame

theorem isUsable_congr {found : Key} {expires now : DateTime}
    (henabled : found.enabled = key.enabled) (hfound : found.expiresAt = some expires)
    (hkey : key.expiresAt = some expiry) (hinstant : expires.instant = expiry.instant)
    (haware : expires.isAware = expiry.isAware) :
    found.isUsable now = key.isUsable now := by
  unfold Key.isUsable DateTime.compare?
  rw [henabled, hfound, hkey]
  dsimp only
  rw [hinstant, haware]

theorem Holds.givesBack (h : Holds key (some expiry.toEpoch) c) (hkept : expiry.Kept)
    (haware : expiry.isAware = true) (henabled : key.enabled = true)
    (hexpiry : key.expiresAt = some expiry) : GivesBack key expiry c := by
  obtain ⟨row, hfind, hrow, hall⟩ := h.find?
  obtain ⟨expires, hback, hinstant, hutc⟩ := hkept.exists_ofEpoch?
  have htime : readOptionalTime row.expiresAt = .ok (some expires) := by
    rw [hrow.expiry]
    exact readOptionalTime_of_ofEpoch? hback
  have hreadable : row.Readable := KeyRow.readable_iff.mpr ⟨⟨_, htime⟩, hrow.used⟩
  obtain ⟨found, hread⟩ := hreadable
  obtain ⟨hsame, hid, hstate⟩ := KeyRow.toKey_eq_ok hread
  have hexpires : found.expiresAt = some expires := Except.ok.inj (hsame.symm.trans htime)
  refine ⟨⟨found, expires, ?_, hid.trans hrow.id, hexpires, hinstant, fun now _ => ?_⟩,
    fun hothers => ?_⟩
  · rw [hfind, hread]
    rfl
  · exact isUsable_congr (by rw [hstate, hrow.enabled, henabled]) hexpires hexpiry hinstant
      (by rw [hutc, haware])
  · exact (hall hothers ⟨found, hread⟩).keysOf

/-- A key that is found with an instant of expiry has had it determined by the double. -/
theorem Holds.kept (h : Holds key (some expiry.toEpoch) c) {found : Key} {expires : DateTime}
    (hfound : c.findByDigest (some key.digest) = .ok (some found))
    (hexpires : found.expiresAt = some expires) (hinstant : expires.instant = expiry.instant) :
    expiry.Kept := by
  obtain ⟨row, hfind, hrow, -⟩ := h.find?
  rw [hfind] at hfound
  cases hread : row.toKey with
  | error fault =>
    rw [hread] at hfound
    cases hfound
  | ok key =>
    rw [hread] at hfound
    cases hfound
    have htime := (KeyRow.toKey_eq_ok hread).1
    rw [hrow.expiry, hexpires] at htime
    exact DateTime.kept_of_ofEpoch? (ofEpoch?_of_readOptionalTime htime) hinstant

/-- **An issued key can be read back from then on just if its expiry is kept.** -/
theorem gives_back_iff (haware : expiry.isAware = true)
    (hissue : c.createKey account project name (some expiry) w = (.ok issued, w', c')) :
    (∀ d, Later issued.key.id c' d → GivesBack issued.key expiry d) ↔ expiry.Kept := by
  rcases createKey_cases account project name (some expiry) w c with
    ⟨fault, v, hrun⟩ | ⟨made, v, row, hissued, hrun⟩
  · rw [hrun] at hissue
    cases hissue
  rw [hrun] at hissue
  cases hissue
  constructor
  · intro hback
    obtain ⟨found, expires, hfound, -, hexpires, hinstant, -⟩ := (hback _ .refl).found
    exact hissued.holds.kept hfound hexpires hinstant
  · intro hkept d hlater
    exact (hissued.holds.later hlater).givesBack hkept haware hissued.keyEnabled hissued.keyExpiry

/-- A store with one project and no key. -/
def oneProject : Credentials := ⟨true, [⟨"p", "a", "n", .zero⟩], []⟩

/-- The start of 1970. -/
def start : World := ⟨⟨Time.epoch, by decide, some .utc⟩, .zero, .zero, 0⟩

/-- The last second of the year 9999 in a zone five and a half hours ahead of UTC. -/
def lastSecond : DateTime :=
  ⟨Time.wallEnd - Time.second, by decide, some ⟨19800 * Time.second, by decide⟩⟩

theorem gives_back_lastSecond : lastSecond.isAware = true ∧ lastSecond.Kept ∧
    ∃ issued w c, oneProject.createKey (some "a") (some "p") none (some lastSecond) start
        = (.ok issued, w, c) ∧
      ((∀ d, Later issued.key.id c d → GivesBack issued.key lastSecond d) ↔ lastSecond.Kept) := by
  have hkept : lastSecond.Kept := ⟨by decide, by decide, by decide +kernel⟩
  obtain ⟨issued, w, c, hissue⟩ : ∃ issued w c, oneProject.createKey (some "a") (some "p") none
      (some lastSecond) start = (.ok issued, w, c) := ⟨_, _, _, rfl⟩
  exact ⟨rfl, hkept, issued, w, c, hissue, gives_back_iff rfl hissue⟩

/-- The last microsecond of the year 9999. -/
def lastMicrosecond : DateTime := ⟨Time.wallEnd - 1, by decide, some .utc⟩

/-- **A key that expires at the very end can be issued and never be read.** The nearest double is the
end of the year 9999, which is no time any more, so that finding the key fails, and listing the keys
of its project as well. -/
theorem lastMicrosecond_unreadable :
    ∃ issued w c, oneProject.createKey (some "a") (some "p") none (some lastMicrosecond) start
        = (.ok issued, w, c) ∧
      c.findByDigest (some issued.key.digest) = .error .badValue ∧
      ∀ keys, c.keysOf (some "p") ≠ .ok keys := by
  have hnone : DateTime.ofEpoch? lastMicrosecond.toEpoch = none := by decide +kernel
  have hlost : ∀ row : KeyRow, row.expiresAt = some lastMicrosecond.toEpoch →
      row.toKey = .error .badValue := by
    intro row hrow
    unfold KeyRow.toKey
    rw [hrow, readOptionalTime_of_none hnone]
    rfl
  rcases createKey_cases (some "a") (some "p") none (some lastMicrosecond) start oneProject with
    ⟨fault, w, hrun⟩ | ⟨issued, w, row, hissued, hrun⟩
  · cases hrun
  · refine ⟨issued, w, _, hrun, ?_, fun keys hkeys => ?_⟩
    · obtain ⟨found, hfind, hfound, -⟩ := hissued.holds.find?
      rw [hfind, hlost found hfound.expiry]
      rfl
    · obtain ⟨key, hkey⟩ := readable_of_keysOf hkeys
        (List.mem_append_right _ List.mem_cons_self) hissued.project
      rw [hlost row hissued.expiry] at hkey
      cases hkey

end Credentials

end Telemetry.Store
