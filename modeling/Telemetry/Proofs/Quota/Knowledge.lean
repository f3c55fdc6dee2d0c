import Mathlib.Data.List.Induction
import Telemetry.Proofs.Quota.Freshness
import Telemetry.Proofs.Quota.Lookup

/-!
# What the cache knows

A value that the cache serves for a key is known if a lookup of the key has succeeded since the
entry of the key was made. Lookups that fail, take too long or are aborted leave what is known as
it is, and an entry that is evicted takes it away. So a getter is served the latest known value, or
the default if nothing is known, and cannot tell the two apart.

Main statement: `served_known`.
-/

namespace Telemetry.Quota.Cache

variable {ν : Type} {c d : Cache ν} {key : String} {e : Entry ν} {m : Move ν}

/-! ## Findings -/

/-- What is found out about a key: its entry is made, and a lookup succeeds or fails. -/
inductive Finding (ν : Type)
  | made
  | found (value : ν)
  | failed

/-- What is found out about a key in a move. A fetch that takes too long has failed; one that is
aborted has found out nothing. -/
def findingsOf (c : Cache ν) (key : String) : Move ν → List (Finding ν)
  | .get _ other => if other = key ∧ (c.entry? key).isNone = true then [.made] else []
  | .succeed other value => if other = key then [.found value] else []
  | .fail other | .timeOut other => if other = key then [.failed] else []
  | _ => []

/-- What is found out about a key in a sequence of moves. -/
def findings (c : Cache ν) (key : String) : List (Move ν) → List (Finding ν)
  | [] => []
  | m :: ms => c.findingsOf key m ++ (c.move m).1.findings key ms

/-- What is known after a finding: nothing of a new entry, and otherwise the value that was found
last. -/
def learn (known : Option ν) : Finding ν → Option ν
  | .made => none
  | .found value => some value
  | .failed => known

/-- What is known after some findings. -/
def known (h : List (Finding ν)) : Option ν := h.foldl learn none

/-- What is known of a key after a sequence of moves. -/
def knownAfter (c : Cache ν) (key : String) (ms : List (Move ν)) : Option ν :=
  known (c.findings key ms)

theorem known_append (h more : List (Finding ν)) :
    known (h ++ more) = more.foldl learn (known h) := List.foldl_append

theorem foldl_learn_failed {more : List (Finding ν)} (hmore : ∀ f ∈ more, f = .failed)
    (value : Option ν) : more.foldl learn value = value := by
  induction more with
  | nil => rfl
  | cons f more ih =>
    rw [List.foldl_cons, hmore f (.head _)]
    exact ih fun f hf => hmore f (.tail _ hf)

/-- What is known is a value that a lookup has found, and since then lookups have only failed. -/
theorem known_eq_some {h : List (Finding ν)} {value : ν} (hknown : known h = some value) :
    ∃ before after, h = before ++ .found value :: after ∧ ∀ f ∈ after, f = .failed := by
  induction h using List.reverseRecOn with
  | nil => cases hknown
  | append_singleton h f ih =>
    rw [known_append] at hknown
    cases f with
    | made => cases hknown
    | found other =>
      cases hknown
      exact ⟨h, [], rfl, fun f hf => absurd hf List.not_mem_nil⟩
    | failed =>
      obtain ⟨before, after, hh, hafter⟩ := ih hknown
      refine ⟨before, after ++ [.failed], by rw [hh, List.append_assoc, List.cons_append], ?_⟩
      intro f hf
      rcases List.mem_append.mp hf with hf | hf
      · exact hafter f hf
      · exact List.mem_singleton.mp hf

/-- Nothing is known of an entry while every lookup since it was made has failed. -/
theorem known_made (before : List (Finding ν)) {after : List (Finding ν)}
    (hafter : ∀ f ∈ after, f = .failed) : known (before ++ .made :: after) = none := by
  rw [known_append, List.foldl_cons]
  exact foldl_learn_failed hafter none

/-! ## Every move keeps what is known -/

/-- Every entry holds what is known of its key, or the default. -/
structure Remembers (default : ν) (knows : String → Option ν) (c : Cache ν) : Prop where
  coherent : Coherent c
  default_eq : c.default = default
  value : ∀ key e, c.entry? key = some e → e.value = (knows key).getD default

variable {default : ν} {knows : String → Option ν}

/-- Where an entry is written, the other entries still hold what is known of their keys. -/
theorem Remembers.put (h : Remembers default knows c) {other : String} {written : Entry ν}
    (more : String → List (Finding ν)) (hmore : ∀ key, key ≠ other → more key = [])
    (hfound : Assoc.find? key (Assoc.put other written c.entries) = some e)
    (hvalue : written.value = ((more other).foldl learn (knows other)).getD default) :
    e.value = ((more key).foldl learn (knows key)).getD default := by
  rw [lookup_put] at hfound
  split at hfound
  · rename_i hkey
    rw [hkey, ← Option.some.inj hfound]
    exact hvalue
  · rename_i hkey
    rw [hmore key hkey]
    exact h.value key e hfound

theorem Remembers.get (h : Remembers default knows c) (tag other : String)
    (hfound : entry? (c.get tag other).1 key = some e) :
    e.value = ((c.findingsOf key (.get tag other)).foldl learn (knows key)).getD default := by
  unfold Cache.get at hfound
  have hmore : ∀ key, key ≠ other → c.findingsOf key (.get tag other) = [] := fun key hkey =>
    if_neg fun hboth => hkey hboth.1.symm
  split at hfound
  · rename_i hnone
    refine h.put (fun key => c.findingsOf key (.get tag other)) hmore hfound ?_
    rw [findingsOf, if_pos ⟨rfl, by rw [hnone]; rfl⟩]
    exact h.default_eq
  · rename_i found he
    have hnothing : ∀ key, c.findingsOf key (.get tag other) = [] := fun key => by
      refine if_neg fun ⟨hkey, hnone⟩ => ?_
      rw [← hkey, he] at hnone
      cases hnone
    rw [hnothing]
    split at hfound
    · exact h.value key e hfound
    · split at hfound
      · exact h.value key e hfound
      · exact h.put (fun _ => []) (fun _ _ => rfl) hfound (h.value other found he)

theorem Remembers.finish (h : Remembers default knows c) {other : String} {fetched : Option ν}
    (more : String → List (Finding ν)) (hmore : ∀ key, key ≠ other → more key = [])
    (hlearn : (more other).foldl learn (knows other) = fetched.or (knows other))
    (hpending : c.isPending other = true)
    (hfound : entry? (c.finish other fetched).1 key = some e) :
    e.value = ((more key).foldl learn (knows key)).getD default := by
  obtain ⟨found, he⟩ := h.coherent.entry hpending
  rw [finish_eq he] at hfound
  refine h.put more hmore hfound ?_
  rw [hlearn, h.value other found he]
  cases fetched <;> rfl

/-- **Every move keeps what is known**, up to what is found out in it. -/
theorem Remembers.move (h : Remembers default knows c) (hm : c.Can m) :
    Remembers default (fun key => (c.findingsOf key m).foldl learn (knows key)) (c.move m).1 where
  coherent := h.coherent.move m
  default_eq := (default_move c m).trans h.default_eq
  value := by
    intro key e hfound
    cases m with
    | get tag other => exact h.get tag other hfound
    | succeed other value =>
      refine h.finish (fun key => c.findingsOf key (.succeed other value))
        (fun key hkey => if_neg (Ne.symm hkey)) ?_ hm hfound
      rw [findingsOf, if_pos rfl]
      rfl
    | fail other =>
      refine h.finish (fun key => c.findingsOf key (.fail other))
        (fun key hkey => if_neg (Ne.symm hkey)) ?_ hm hfound
      rw [findingsOf, if_pos rfl]
      rfl
    | timeOut other =>
      refine h.finish (fun key => c.findingsOf key (.timeOut other))
        (fun key hkey => if_neg (Ne.symm hkey)) ?_ (isPending_of_can_timeOut hm) hfound
      rw [findingsOf, if_pos rfl]
      rfl
    | abort other =>
      obtain ⟨found, he⟩ := h.coherent.entry hm
      change entry? (c.abort other).1 key = some e at hfound
      rw [abort_eq he] at hfound
      exact h.put (fun _ => []) (fun _ _ => rfl) hfound (h.value other found he)
    | _ =>
      refine h.value key e (h.coherent.entry_of_quiet ?_ hfound)
      trivial

theorem remembers_empty (default : ν) (ttl sweepInterval : Double) (timeout : Option Double) :
    Remembers default (fun _ => none) (empty default ttl sweepInterval timeout) :=
  ⟨coherent_empty default ttl sweepInterval timeout, rfl, fun _ _ he => nomatch he⟩

theorem Run.remembers {ms : List (Move ν)} {ended : Endings ν} (hrun : Run c ms ended d) :
    ∀ {knows : String → Option ν}, Remembers default knows c →
      Remembers default (fun key => (c.findings key ms).foldl learn (knows key)) d := by
  induction hrun with
  | nil c => exact fun hc => hc
  | cons hm _ ih =>
    intro knows hc
    simp only [findings, List.foldl_append]
    exact ih (hc.move hm)

theorem findings_append_singleton {ms : List (Move ν)} {ended : Endings ν}
    (hrun : Run c ms ended d) (key : String) (m : Move ν) :
    c.findings key (ms ++ [m]) = c.findings key ms ++ d.findingsOf key m := by
  induction hrun with
  | nil c => exact List.append_nil _
  | cons _ _ ih => rw [List.cons_append, findings, ih, findings, List.append_assoc]

/-! ## Getters that are served -/

/-- In a move a getter of a key is served a value: at once, or with the end of the fetch that it
waits for. -/
inductive Serves (c : Cache ν) : Move ν → String → ν → Prop
  | atOnce {tag key : String} {value : ν} (h : (c.get tag key).2 = [(tag, .served value)]) :
    Serves c (.get tag key) key value
  | ended {m : Move ν} {key : String} {value : ν} (hpending : c.isPending key = true)
    (h : EndsWith c key m (.served value)) : Serves c m key value

/-- **A getter is served what is known of its key**, or the default if nothing is. -/
theorem served_known {ttl sweepInterval : Double} {timeout : Option Double} {ms : List (Move ν)}
    {ended : Endings ν} {value : ν} (hrun : Run (empty default ttl sweepInterval timeout) ms ended c)
    (hserves : Serves c m key value) :
    value = ((empty default ttl sweepInterval timeout).knownAfter key (ms ++ [m])).getD default := by
  have hremembers := hrun.remembers (remembers_empty default ttl sweepInterval timeout)
  rw [knownAfter, findings_append_singleton hrun, known_append]
  cases hserves with
  | atOnce hserved =>
    obtain ⟨e, he, -, -, hvalue⟩ := entry_of_served hserved
    -- The entry is there, so that none is made.
    rw [findingsOf, if_neg (by rw [he]; simp), List.foldl_nil, ← hvalue]
    exact hremembers.value key e he
  | ended hpending hends =>
    cases hends with
    | succeed =>
      rw [findingsOf, if_pos rfl]
      rfl
    | fail he =>
      rw [findingsOf, if_pos rfl]
      exact hremembers.value key _ he
    | timeOut he =>
      rw [findingsOf, if_pos rfl]
      exact hremembers.value key _ he

end Telemetry.Quota.Cache
