import Mathlib.Data.Multiset.AddSub
import BrandSniper.Kit.Runs
import BrandSniper.Kit.Streams

/-!
# Adopting the legacy batch streams

`RedisBatchStore.adopt_legacy_streams` moves the entries of three streams to
three others, by commands on a store that survives the process. The process
can stop between any two commands and start again from the top.

A run is a list of commands and restarts. What it keeps is a list, not only a
multiset: the entries of the venue's stream, followed by those of the legacy
stream, always say the same.
-/

namespace BrandSniper.StreamAdoption

open Kit

def LEGACY_PENDING_KEY : String := "listener:ingest:pending"

def LEGACY_DEAD_LETTER_KEY : String := "listener:ingest:dead-letter"

def LEGACY_MALFORMED_KEY : String := "listener:ingest:malformed"

/-- Entries moved per `XRANGE` page. -/
def LEGACY_MOVE_PAGE_SIZE : Nat := 100

/-- The keys of a `RedisBatchStore`. -/
structure RedisBatchStore where
  pendingKey : String
  deadLetterKey : String
  malformedKey : String

/-- `RedisBatchStore.for_venue` -/
def RedisBatchStore.forVenue (venue : String) : RedisBatchStore where
  pendingKey := "listener:ingest:" ++ venue ++ ":pending"
  deadLetterKey := "listener:ingest:" ++ venue ++ ":dead-letter"
  malformedKey := "listener:ingest:" ++ venue ++ ":malformed"

/-- Each legacy stream with the stream that takes its entries. -/
def RedisBatchStore.pairs (batches : RedisBatchStore) : List (String × String) :=
  [(LEGACY_PENDING_KEY, batches.pendingKey), (LEGACY_DEAD_LETTER_KEY, batches.deadLetterKey),
    (LEGACY_MALFORMED_KEY, batches.malformedKey)]

/-- The command a run issues next for the pair it is at. `move` is the transaction of `XADD`
and `XDEL` for the first entry of the page. -/
inductive Command (φ : Type)
  | «exists»
  | xlen
  | renamenx (legacyLength : Nat)
  | xrange
  | move (entry : StreamEntry φ) (page : List (StreamEntry φ))
  | del

/-- What follows a command: another one for the same pair, the next pair, or an exception. -/
inductive Outcome (φ : Type)
  | next (command : Command φ) (moved : Nat)
  | finished (moved : Nat)
  | failed

variable {φ : Type}

/-- One command for the pair `(legacy_key, key)`. The server's clock shows `now`. -/
def execute (now : Nat) (r : StreamStore φ) (pair : String × String) (moved : Nat) :
    Command φ → StreamStore φ × Outcome φ
  | .exists => (r, if (r pair.1).isSome then .next .xlen moved else .finished moved)
  | .xlen => (r, .next (.renamenx (r.xlen pair.1)) moved)
  | .renamenx legacyLength =>
      match r.renamenx pair.1 pair.2 with
      | none => (r, .failed)
      | some (r', true) => (r', .finished (moved + legacyLength))
      | some (r', false) => (r', .next .xrange moved)
  | .xrange =>
      match r.xrange pair.1 LEGACY_MOVE_PAGE_SIZE with
      | [] => (r, .next .del moved)
      | entry :: page => (r, .next (.move entry page) moved)
  | .move entry page =>
      ((r.xadd now pair.2 entry.2).xdel pair.1 entry.1,
        match page with
        | [] => .next .xrange (moved + 1)
        | entry' :: page' => .next (.move entry' page') (moved + 1))
  | .del => (r.del pair.1, .finished moved)

/-- Where a run is. The last command reads the length of the pending stream for a metric. -/
inductive Progress (φ : Type)
  | atPair (pair : String × String) (command : Command φ) (rest : List (String × String))
      (moved : Nat)
  | refreshing (moved : Nat)
  | returned (moved : Nat)
  | raised

/-- The next pair. A stream is not moved onto itself. -/
def enter : List (String × String) → Nat → Progress φ
  | [], moved => .refreshing moved
  | pair :: rest, moved =>
      if pair.1 = pair.2 then enter rest moved else .atPair pair .exists rest moved

/-- One command of `adopt_legacy_streams`. A run that has ended issues none. -/
def issue (now : Nat) (r : StreamStore φ) : Progress φ → Option (StreamStore φ × Progress φ)
  | .atPair pair command rest moved =>
      match execute now r pair moved command with
      | (r', .next command' moved') => some (r', .atPair pair command' rest moved')
      | (r', .finished moved') => some (r', enter rest moved')
      | (r', .failed) => some (r', .raised)
  | .refreshing moved => some (r, .returned moved)
  | .returned _ => none
  | .raised => none

/-- The store, and the run of the process that is up. -/
structure System (φ : Type) where
  store : StreamStore φ
  progress : Progress φ

inductive Event
  | command (now : Nat)
  | restart

/-- A process that stops leaves what its commands did, and the next one starts from the top. -/
def step (batches : RedisBatchStore) (s : System φ) : Event → Option (System φ)
  | .command now => (issue now s.store s.progress).map fun next => ⟨next.1, next.2⟩
  | .restart => some ⟨s.store, enter batches.pairs 0⟩

def start (batches : RedisBatchStore) (r : StreamStore φ) : System φ :=
  ⟨r, enter batches.pairs 0⟩

/-! ## What a command does -/

/-- What is known of the legacy stream when a command is due. The page is still at its head. -/
def Due (r : StreamStore φ) (pair : String × String) : Command φ → Prop
  | .exists => True
  | .xlen | .renamenx _ | .xrange => ∃ s, r pair.1 = some s
  | .move entry page => ∃ s tail, r pair.1 = some s ∧ s.entries = (entry :: page) ++ tail
  | .del => ∃ s, r pair.1 = some s ∧ s.entries = []

/-- What is known after a command. -/
def Outcome.Good (r : StreamStore φ) (pair : String × String) : Outcome φ → Prop
  | .next command _ => Due r pair command
  | .finished _ => r pair.1 = none
  | .failed => False

/-- The entries of a pair in the order they are to end up in. -/
def contents (r : StreamStore φ) (pair : String × String) : List φ :=
  r.fieldsAt pair.2 ++ r.fieldsAt pair.1

/-- What `r'` keeps of `r` when only the streams of `pair` may have changed. -/
structure Keeps (pair : String × String) (r r' : StreamStore φ) : Prop where
  contents : contents r' pair = contents r pair
  others : ∀ key, key ≠ pair.1 → key ≠ pair.2 → r' key = r key

theorem Keeps.refl (pair : String × String) (r : StreamStore φ) : Keeps pair r r :=
  ⟨rfl, fun _ _ _ => rfl⟩

theorem xrange_cases {r : StreamStore φ} {key : String} {s : Stream φ} (h : r key = some s) :
    (r.xrange key LEGACY_MOVE_PAGE_SIZE = [] ∧ s.entries = []) ∨
      ∃ entry page tail, r.xrange key LEGACY_MOVE_PAGE_SIZE = entry :: page ∧
        s.entries = (entry :: page) ++ tail := by
  have hpage : r.xrange key LEGACY_MOVE_PAGE_SIZE = s.entries.take LEGACY_MOVE_PAGE_SIZE := by
    rw [StreamStore.xrange, h]
    rfl
  rw [hpage]
  cases hentries : s.entries with
  | nil => exact .inl ⟨rfl, rfl⟩
  | cons entry rest =>
      right
      exact ⟨entry, rest.take 99, rest.drop 99, rfl, by rw [List.cons_append, List.take_append_drop]⟩

theorem keeps_renamed {pair : String × String} (hne : pair.1 ≠ pair.2) {r : StreamStore φ}
    {s : Stream φ} (h : r pair.1 = some s) (hfree : r pair.2 = none) :
    Keeps pair r (Function.update (Function.update r pair.1 none) pair.2 (some s)) ∧
      Function.update (Function.update r pair.1 none) pair.2 (some s) pair.1 = none := by
  have hold : Function.update (Function.update r pair.1 none) pair.2 (some s) pair.1 = none := by
    rw [Function.update_of_ne hne, Function.update_self]
  have hnew : Function.update (Function.update r pair.1 none) pair.2 (some s) pair.2 = some s :=
    Function.update_self _ _ _
  refine ⟨⟨?_, fun key h1 h2 => ?_⟩, hold⟩
  · rw [contents, contents, StreamStore.fieldsAt_of_some hnew, StreamStore.fieldsAt_of_none hold,
      StreamStore.fieldsAt_of_some h, StreamStore.fieldsAt_of_none hfree, List.append_nil,
      List.nil_append]
  · rw [Function.update_of_ne h2, Function.update_of_ne h1]

theorem keeps_moved {pair : String × String} (hne : pair.1 ≠ pair.2) {r : StreamStore φ}
    {s : Stream φ} {entry : StreamEntry φ} {rest : List (StreamEntry φ)} (now : Nat)
    (h : r pair.1 = some s) (hentries : s.entries = entry :: rest) :
    Keeps pair r ((r.xadd now pair.2 entry.2).xdel pair.1 entry.1) ∧
      ∃ s', (r.xadd now pair.2 entry.2).xdel pair.1 entry.1 pair.1 = some s' ∧
        s'.entries = rest := by
  have hmid : r.xadd now pair.2 entry.2 pair.1 = some s := by
    rw [StreamStore.xadd_of_ne _ _ hne, h]
  obtain ⟨s', hs', hrest⟩ := StreamStore.xdel_head hmid hentries
  refine ⟨⟨?_, fun key h1 h2 => ?_⟩, s', hs', hrest⟩
  · have hvenue := StreamStore.fieldsAt_congr
      (StreamStore.xdel_of_ne (r := r.xadd now pair.2 entry.2) entry.1 hne.symm)
    have hold : s.fields = entry.2 :: s'.fields := by
      rw [Stream.fields, Stream.fields, hentries, hrest, List.map_cons]
    rw [contents, contents, hvenue, StreamStore.fieldsAt_xadd, StreamStore.fieldsAt_of_some hs',
      StreamStore.fieldsAt_of_some h, hold, List.append_assoc, List.singleton_append]
  · rw [StreamStore.xdel_of_ne _ h1, StreamStore.xadd_of_ne _ _ h2]

theorem keeps_discarded {pair : String × String} (hne : pair.1 ≠ pair.2) {r : StreamStore φ}
    {s : Stream φ} (h : r pair.1 = some s) (hentries : s.entries = []) :
    Keeps pair r (r.del pair.1) := by
  refine ⟨?_, fun key h1 _ => StreamStore.del_of_ne h1⟩
  have hempty : s.fields = [] := by rw [Stream.fields, hentries, List.map_nil]
  rw [contents, contents, StreamStore.fieldsAt_congr (StreamStore.del_of_ne hne.symm),
    StreamStore.fieldsAt_of_none StreamStore.del_self, StreamStore.fieldsAt_of_some h, hempty]

/-- One case for each command. -/
theorem execute_spec {pair : String × String} (hne : pair.1 ≠ pair.2) (now : Nat)
    {r : StreamStore φ} (moved : Nat) {command : Command φ} (hdue : Due r pair command) :
    Keeps pair r (execute now r pair moved command).1 ∧
      (execute now r pair moved command).2.Good (execute now r pair moved command).1 pair := by
  cases command with
  | «exists» =>
      refine ⟨Keeps.refl pair r, ?_⟩
      show Outcome.Good r pair (if (r pair.1).isSome then _ else _)
      split
      · next hsome => exact Option.isSome_iff_exists.mp hsome
      · next hnone => exact Option.not_isSome_iff_eq_none.mp hnone
  | xlen => exact ⟨Keeps.refl pair r, hdue⟩
  | renamenx legacyLength =>
      obtain ⟨s, hs⟩ := hdue
      rcases StreamStore.renamenx_cases pair.2 hs with ⟨-, heq⟩ | ⟨hfree, heq⟩
      · simp only [execute, heq]
        exact ⟨Keeps.refl pair r, s, hs⟩
      · simp only [execute, heq]
        exact keeps_renamed hne hs hfree
  | xrange =>
      obtain ⟨s, hs⟩ := hdue
      rcases xrange_cases hs with ⟨heq, hentries⟩ | ⟨entry, page, tail, heq, hentries⟩
      · simp only [execute, heq]
        exact ⟨Keeps.refl pair r, s, hs, hentries⟩
      · simp only [execute, heq]
        exact ⟨Keeps.refl pair r, s, tail, hs, hentries⟩
  | move entry page =>
      obtain ⟨s, tail, hs, hentries⟩ := hdue
      obtain ⟨hkeeps, s', hs', hrest⟩ := keeps_moved hne now hs hentries
      refine ⟨hkeeps, ?_⟩
      cases page with
      | nil => exact ⟨s', hs'⟩
      | cons entry' page' => exact ⟨s', tail, hs', hrest⟩
  | del =>
      obtain ⟨s, hs, hentries⟩ := hdue
      exact ⟨keeps_discarded hne hs hentries, StreamStore.del_self⟩

/-! ## What a run keeps -/

/-- No two of the keys are the same. -/
structure SeparateKeys (pairs : List (String × String)) : Prop where
  within : ∀ p ∈ pairs, p.1 ≠ p.2
  between : pairs.Pairwise fun p q => p.1 ≠ q.1 ∧ p.1 ≠ q.2 ∧ p.2 ≠ q.1 ∧ p.2 ≠ q.2

/-- A change of one pair's streams leaves those of another pair as they were. -/
theorem Keeps.frame {pairs : List (String × String)} (hkeys : SeparateKeys pairs)
    {p q : String × String} (hp : p ∈ pairs) (hq : q ∈ pairs) (hpq : q ≠ p)
    {r r' : StreamStore φ} (h : Keeps p r r') : r' q.1 = r q.1 ∧ r' q.2 = r q.2 := by
  have hsymm : Std.Symm fun p q : String × String =>
      p.1 ≠ q.1 ∧ p.1 ≠ q.2 ∧ p.2 ≠ q.1 ∧ p.2 ≠ q.2 :=
    ⟨fun _ _ h => ⟨h.1.symm, h.2.2.1.symm, h.2.1.symm, h.2.2.2.symm⟩⟩
  obtain ⟨h11, h12, h21, h22⟩ := hkeys.between.forall hq hp hpq
  exact ⟨h.others q.1 h11 h12, h.others q.2 h21 h22⟩

/-- The legacy streams of the pairs the run has left behind are gone, and what is known of
the pair it is at holds. -/
def Progress.Sound (pairs : List (String × String)) (r : StreamStore φ) : Progress φ → Prop
  | .atPair pair command rest _ =>
      (∃ before, pairs = before ++ pair :: rest ∧ ∀ q ∈ before, r q.1 = none) ∧
        Due r pair command
  | .refreshing _ | .returned _ => ∀ q ∈ pairs, r q.1 = none
  | .raised => False

/-- The invariant of every run from the store `r0`. -/
structure Inv (pairs : List (String × String)) (r0 : StreamStore φ) (s : System φ) : Prop where
  contents : ∀ p ∈ pairs, contents s.store p = contents r0 p
  sound : s.progress.Sound pairs s.store

theorem sound_enter {pairs rest : List (String × String)} (hkeys : SeparateKeys pairs)
    {r : StreamStore φ} (moved : Nat) (before : List (String × String)) (hpairs : pairs = before ++ rest)
    (hbefore : ∀ q ∈ before, r q.1 = none) : (enter rest moved).Sound pairs r := by
  cases rest with
  | nil =>
      rw [List.append_nil] at hpairs
      exact hpairs ▸ hbefore
  | cons pair rest =>
      have hne : pair.1 ≠ pair.2 := hkeys.within pair (by simp [hpairs])
      rw [enter, if_neg hne]
      exact ⟨⟨before, hpairs, hbefore⟩, trivial⟩

theorem inv_start {batches : RedisBatchStore} (hkeys : SeparateKeys batches.pairs)
    (r0 : StreamStore φ) : Inv batches.pairs r0 (start batches r0) :=
  ⟨fun _ _ => rfl, sound_enter hkeys 0 [] (List.nil_append _).symm (List.forall_mem_nil _)⟩

/-- What a command does to a run that is at a pair. -/
theorem issue_atPair {now : Nat} {r r' : StreamStore φ} {pair : String × String}
    {command : Command φ} {rest : List (String × String)} {moved : Nat} {progress : Progress φ}
    (hne : pair.1 ≠ pair.2) (hdue : Due r pair command)
    (h : issue now r (.atPair pair command rest moved) = some (r', progress)) :
    Keeps pair r r' ∧
      ((∃ command' moved', execute now r pair moved command = (r', .next command' moved') ∧
          progress = .atPair pair command' rest moved' ∧ Due r' pair command') ∨
        (∃ moved', execute now r pair moved command = (r', .finished moved') ∧
          progress = enter rest moved' ∧ r' pair.1 = none)) := by
  obtain ⟨hkeeps, hgood⟩ := execute_spec hne now moved hdue
  rw [issue] at h
  split at h
  · next r1 command' moved' heq =>
      obtain ⟨rfl, rfl⟩ := Prod.mk.inj (Option.some_inj.mp h)
      rw [heq] at hkeeps hgood ⊢
      exact ⟨hkeeps, .inl ⟨command', moved', rfl, rfl, hgood⟩⟩
  · next r1 moved' heq =>
      obtain ⟨rfl, rfl⟩ := Prod.mk.inj (Option.some_inj.mp h)
      rw [heq] at hkeeps hgood ⊢
      exact ⟨hkeeps, .inr ⟨moved', rfl, rfl, hgood⟩⟩
  · next r1 heq =>
      rw [heq] at hgood
      exact hgood.elim

theorem inv_issue {pairs : List (String × String)} (hkeys : SeparateKeys pairs)
    {r0 r r' : StreamStore φ} {progress progress' : Progress φ} {now : Nat}
    (hinv : Inv pairs r0 ⟨r, progress⟩) (h : issue now r progress = some (r', progress')) :
    Inv pairs r0 ⟨r', progress'⟩ := by
  obtain ⟨hcontents, hsound⟩ := hinv
  cases progress with
  | atPair pair command rest moved =>
      obtain ⟨⟨before, hpairs, hbefore⟩, hdue⟩ := hsound
      have hpair : pair ∈ pairs := by simp [hpairs]
      have hne := hkeys.within pair hpair
      obtain ⟨hkeeps, hcases⟩ := issue_atPair hne hdue h
      have hothers : ∀ q ∈ pairs, q ≠ pair → r' q.1 = r q.1 ∧ r' q.2 = r q.2 := fun q hq hqp =>
        hkeeps.frame hkeys hpair hq hqp
      have hsplit := hkeys.between
      rw [hpairs, List.pairwise_append] at hsplit
      have hgone : ∀ q ∈ before, r' q.1 = none := by
        intro q hq
        have hqp : q ≠ pair := fun heq =>
          (hsplit.2.2 q hq pair List.mem_cons_self).1 (congrArg Prod.fst heq)
        rw [(hothers q (by simp [hpairs, hq]) hqp).1]
        exact hbefore q hq
      constructor
      · intro q hq
        rw [← hcontents q hq]
        by_cases hqp : q = pair
        · rw [hqp, hkeeps.contents]
        · obtain ⟨h1, h2⟩ := hothers q hq hqp
          rw [contents, contents, StreamStore.fieldsAt_congr h1, StreamStore.fieldsAt_congr h2]
      · rcases hcases with ⟨command', moved', -, rfl, hdue'⟩ | ⟨moved', -, rfl, hnone⟩
        · exact ⟨⟨before, hpairs, hgone⟩, hdue'⟩
        · refine sound_enter hkeys moved' (before ++ [pair]) ?_ ?_
          · rw [hpairs, List.append_cons]
          · intro q hq
            rcases List.mem_append.mp hq with hq | hq
            · exact hgone q hq
            · rwa [List.mem_singleton.mp hq]
  | refreshing moved =>
      obtain ⟨rfl, rfl⟩ := Prod.mk.inj (Option.some_inj.mp h)
      exact ⟨hcontents, hsound⟩
  | returned moved => cases h
  | raised => exact hsound.elim

/-- Restarting keeps the invariant because it only speaks about the streams. -/
theorem inv_step {batches : RedisBatchStore} (hkeys : SeparateKeys batches.pairs)
    {r0 : StreamStore φ} (s : System φ) (e : Event) (s' : System φ)
    (hinv : Inv batches.pairs r0 s) (h : step batches s e = some s') :
    Inv batches.pairs r0 s' := by
  cases e with
  | command now =>
      obtain ⟨⟨r', progress'⟩, hissue, rfl⟩ := Option.map_eq_some_iff.mp h
      exact inv_issue hkeys hinv hissue
  | restart =>
      obtain rfl := Option.some_inj.mp h
      exact ⟨hinv.contents,
        sound_enter hkeys 0 [] (List.nil_append _).symm (List.forall_mem_nil _)⟩

/-! ## Every run ends -/

/-- How many commands a pair may still take, with `n` entries in its legacy stream: every
entry is moved once, after at most one `XRANGE` of its own. -/
def Command.left (n : Nat) : Command φ → Nat
  | .exists => 2 * n + 5
  | .xlen => 2 * n + 4
  | .renamenx _ => 2 * n + 3
  | .xrange => 2 * n + 2
  | .move _ _ => 2 * n + 1
  | .del => 1

/-- The commands the pairs that are not reached yet may take. -/
def leftAhead (r : StreamStore φ) : List (String × String) → Nat
  | [] => 0
  | pair :: rest => Command.left (φ := φ) (r.xlen pair.1) .exists + leftAhead r rest

theorem leftAhead_congr {r r' : StreamStore φ} {rest : List (String × String)}
    (h : ∀ q ∈ rest, r' q.1 = r q.1) : leftAhead r' rest = leftAhead r rest := by
  induction rest with
  | nil => rfl
  | cons pair rest ih =>
      rw [List.forall_mem_cons] at h
      rw [leftAhead, leftAhead, ih h.2, StreamStore.xlen, StreamStore.xlen, h.1]

/-- The commands a run may still take. -/
def Progress.left (r : StreamStore φ) : Progress φ → Nat
  | .atPair pair command rest _ => command.left (r.xlen pair.1) + leftAhead r rest + 1
  | .refreshing _ => 1
  | .returned _ | .raised => 0

theorem left_enter_le (r : StreamStore φ) (rest : List (String × String)) (moved : Nat) :
    (enter rest moved).left r ≤ leftAhead r rest + 1 := by
  induction rest with
  | nil => exact le_rfl
  | cons pair rest ih =>
      rw [enter, leftAhead]
      split
      · omega
      · rw [Progress.left]

theorem xlen_of_some {r : StreamStore φ} {key : String} {s : Stream φ} (h : r key = some s) :
    r.xlen key = s.entries.length := by
  rw [StreamStore.xlen, h]
  rfl

/-- A command that leaves the run at its pair leaves fewer commands for the pair. -/
theorem left_execute_lt {now : Nat} {r r' : StreamStore φ} {pair : String × String}
    {moved moved' : Nat} {command command' : Command φ} (hne : pair.1 ≠ pair.2)
    (hdue : Due r pair command)
    (h : execute now r pair moved command = (r', .next command' moved')) :
    command'.left (r'.xlen pair.1) < command.left (r.xlen pair.1) := by
  cases command with
  | «exists» =>
      simp only [execute] at h
      split at h
      · obtain ⟨rfl, hnext⟩ := Prod.mk.inj h
        cases hnext
        exact Nat.lt_succ_self _
      · cases (Prod.mk.inj h).2
  | xlen =>
      obtain ⟨rfl, hnext⟩ := Prod.mk.inj h
      cases hnext
      exact Nat.lt_succ_self _
  | renamenx legacyLength =>
      obtain ⟨s, hs⟩ := hdue
      rcases StreamStore.renamenx_cases pair.2 hs with ⟨-, heq⟩ | ⟨-, heq⟩
      · simp only [execute, heq] at h
        obtain ⟨rfl, hnext⟩ := Prod.mk.inj h
        cases hnext
        exact Nat.lt_succ_self _
      · simp only [execute, heq] at h
        cases (Prod.mk.inj h).2
  | xrange =>
      obtain ⟨s, hs⟩ := hdue
      rcases xrange_cases hs with ⟨heq, -⟩ | ⟨entry, page, tail, heq, -⟩
      · simp only [execute, heq] at h
        obtain ⟨rfl, hnext⟩ := Prod.mk.inj h
        cases hnext
        simp only [Command.left]
        omega
      · simp only [execute, heq] at h
        obtain ⟨rfl, hnext⟩ := Prod.mk.inj h
        cases hnext
        exact Nat.lt_succ_self _
  | move entry page =>
      -- the stream got one entry shorter
      obtain ⟨s, tail, hs, hentries⟩ := hdue
      obtain ⟨-, s', hs', hrest⟩ := keeps_moved hne now hs hentries
      have hlength : r.xlen pair.1 = s'.entries.length + 1 := by
        rw [xlen_of_some hs, hentries, hrest]
        rfl
      obtain ⟨rfl, hnext⟩ := Prod.mk.inj h
      rw [xlen_of_some hs', hlength]
      split at hnext <;> cases hnext <;> simp only [Command.left] <;> omega
  | del => cases (Prod.mk.inj h).2

theorem one_le_left (n : Nat) (command : Command φ) : 1 ≤ command.left n := by
  cases command <;> simp only [Command.left] <;> omega

/-- Every command brings a run nearer to its end. -/
theorem left_issue_lt {pairs : List (String × String)} (hkeys : SeparateKeys pairs)
    {r0 r r' : StreamStore φ} {progress progress' : Progress φ} {now : Nat}
    (hinv : Inv pairs r0 ⟨r, progress⟩) (h : issue now r progress = some (r', progress')) :
    progress'.left r' < progress.left r := by
  obtain ⟨-, hsound⟩ := hinv
  cases progress with
  | atPair pair command rest moved =>
      obtain ⟨⟨before, hpairs, -⟩, hdue⟩ := hsound
      have hpair : pair ∈ pairs := by simp [hpairs]
      have hne := hkeys.within pair hpair
      obtain ⟨hkeeps, hcases⟩ := issue_atPair hne hdue h
      -- the pairs ahead are as they were
      have hsplit := hkeys.between
      rw [hpairs, List.pairwise_append, List.pairwise_cons] at hsplit
      have hahead : leftAhead r' rest = leftAhead r rest := by
        apply leftAhead_congr
        intro q hq
        have hqp : q ≠ pair := fun heq => (hsplit.2.1.1 q hq).1 (congrArg Prod.fst heq).symm
        exact (hkeeps.frame hkeys hpair (by simp [hpairs, hq]) hqp).1
      rcases hcases with ⟨command', moved', heq, rfl, -⟩ | ⟨moved', -, rfl, -⟩
      · have hlt : command'.left (r'.xlen pair.1) < command.left (r.xlen pair.1) :=
          left_execute_lt hne hdue heq
        calc command'.left (r'.xlen pair.1) + leftAhead r' rest + 1
            = command'.left (r'.xlen pair.1) + leftAhead r rest + 1 := by rw [hahead]
          _ < command.left (r.xlen pair.1) + leftAhead r rest + 1 := by omega
      · have hle := left_enter_le r' rest moved'
        have hone := one_le_left (r.xlen pair.1) command
        rw [hahead] at hle
        calc (enter rest moved').left r' ≤ leftAhead r rest + 1 := hle
          _ < command.left (r.xlen pair.1) + leftAhead r rest + 1 := by omega
  | refreshing moved =>
      obtain ⟨rfl, rfl⟩ := Prod.mk.inj (Option.some_inj.mp h)
      exact Nat.zero_lt_one
  | returned moved => cases h
  | raised => exact hsound.elim

/-- A run that has not returned can issue a command: none raises. -/
theorem exists_issue {pairs : List (String × String)} (hkeys : SeparateKeys pairs)
    {r0 : StreamStore φ} {s : System φ} (hinv : Inv pairs r0 s)
    (hrunning : ∀ moved, s.progress ≠ .returned moved) (now : Nat) :
    ∃ next, issue now s.store s.progress = some next := by
  obtain ⟨r, progress⟩ := s
  cases progress with
  | atPair pair command rest moved =>
      obtain ⟨⟨before, hpairs, -⟩, hdue⟩ := hinv.sound
      have hne := hkeys.within pair (by simp [hpairs])
      obtain ⟨-, hgood⟩ := execute_spec hne now moved hdue
      show ∃ next, issue now r _ = some next
      rw [issue]
      split
      · exact ⟨_, rfl⟩
      · exact ⟨_, rfl⟩
      · exact ⟨_, rfl⟩
  | refreshing moved => exact ⟨_, rfl⟩
  | returned moved => exact absurd rfl (hrunning moved)
  | raised => exact hinv.sound.elim

/-- A run that is not stopped returns, at whatever speed its commands are issued. -/
theorem leads_to_return {batches : RedisBatchStore} (hkeys : SeparateKeys batches.pairs)
    {r0 : StreamStore φ} {s : System φ} (hinv : Inv batches.pairs r0 s) :
    Leads (step batches) (fun e => ∃ now, e = .command now) (fun e => ∃ now, e = .command now)
      (fun s => ∃ moved, s.progress = .returned moved) s := by
  refine leads_of_measure (Inv batches.pairs r0) (fun s => s.progress.left s.store) ?_ ?_ hinv
  · intro s hinv hrunning
    obtain ⟨next, hnext⟩ := exists_issue hkeys hinv (not_exists.mp hrunning) 0
    refine ⟨.command 0, ⟨next.1, next.2⟩, ⟨0, rfl⟩, ?_⟩
    rw [step, hnext, Option.map_some]
  · rintro s e s' hinv - ⟨now, rfl⟩ hstep
    right
    refine ⟨inv_step hkeys s _ s' hinv hstep, ?_⟩
    obtain ⟨⟨r', progress'⟩, hissue, rfl⟩ := Option.map_eq_some_iff.mp hstep
    exact left_issue_lt hkeys hinv hissue

/-! ## A venue's streams -/

theorem length_venueKey (venue kind : String) :
    ("listener:ingest:" ++ venue ++ kind).length = 16 + venue.length + kind.length := by
  rw [String.length_append, String.length_append]
  rfl

theorem lastLetter_venueKey (venue kind : String) (h : kind.toList ≠ []) :
    ("listener:ingest:" ++ venue ++ kind).toList.getLast? = kind.toList.getLast? := by
  rw [String.toList_append, List.getLast?_append_of_ne_nil _ h]

/-- A venue's key is longer than the legacy key of its kind. -/
theorem legacy_ne_venueKey (venue key kind : String) (h : key.length < 16 + kind.length) :
    key ≠ "listener:ingest:" ++ venue ++ kind := by
  rintro rfl
  rw [length_venueKey] at h
  omega

/-- The keys of two kinds end in different letters. -/
theorem key_ne_venueKey (venue key kind : String) (hkind : kind.toList ≠ [])
    (h : key.toList.getLast? ≠ kind.toList.getLast?) :
    key ≠ "listener:ingest:" ++ venue ++ kind := by
  rintro rfl
  exact h (lastLetter_venueKey venue kind hkind)

theorem venueKey_ne_venueKey (venue kind kind' : String) (hkind : kind.toList ≠ [])
    (hkind' : kind'.toList ≠ []) (h : kind.toList.getLast? ≠ kind'.toList.getLast?) :
    "listener:ingest:" ++ venue ++ kind ≠ "listener:ingest:" ++ venue ++ kind' := by
  apply key_ne_venueKey venue _ kind' hkind'
  rwa [lastLetter_venueKey venue kind hkind]

theorem separateKeys_forVenue (venue : String) :
    SeparateKeys (RedisBatchStore.forVenue venue).pairs := by
  constructor
  · intro p hp
    simp only [RedisBatchStore.pairs, List.mem_cons, List.not_mem_nil, or_false] at hp
    rcases hp with rfl | rfl | rfl
    · exact legacy_ne_venueKey venue LEGACY_PENDING_KEY ":pending" (by decide)
    · exact legacy_ne_venueKey venue LEGACY_DEAD_LETTER_KEY ":dead-letter" (by decide)
    · exact legacy_ne_venueKey venue LEGACY_MALFORMED_KEY ":malformed" (by decide)
  · have hapart : ∀ key key' kind kind' : String, key ≠ key' → kind.toList ≠ [] →
        kind'.toList ≠ [] → key.toList.getLast? ≠ kind'.toList.getLast? →
        key'.toList.getLast? ≠ kind.toList.getLast? →
        kind.toList.getLast? ≠ kind'.toList.getLast? →
        key ≠ key' ∧ key ≠ "listener:ingest:" ++ venue ++ kind' ∧
          "listener:ingest:" ++ venue ++ kind ≠ key' ∧
          "listener:ingest:" ++ venue ++ kind ≠ "listener:ingest:" ++ venue ++ kind' :=
      fun key key' kind kind' hne hkind hkind' h1 h2 h3 =>
        ⟨hne, key_ne_venueKey venue key kind' hkind' h1,
          (key_ne_venueKey venue key' kind hkind h2).symm,
          venueKey_ne_venueKey venue kind kind' hkind hkind' h3⟩
    refine .cons (fun q hq => ?_) (.cons (fun q hq => ?_) (List.pairwise_singleton _ _))
    · simp only [List.mem_cons, List.not_mem_nil, or_false] at hq
      rcases hq with rfl | rfl
      · exact hapart LEGACY_PENDING_KEY LEGACY_DEAD_LETTER_KEY ":pending" ":dead-letter"
          (by decide) (by decide) (by decide) (by decide) (by decide) (by decide)
      · exact hapart LEGACY_PENDING_KEY LEGACY_MALFORMED_KEY ":pending" ":malformed"
          (by decide) (by decide) (by decide) (by decide) (by decide) (by decide)
    · rw [List.mem_singleton] at hq
      subst hq
      exact hapart LEGACY_DEAD_LETTER_KEY LEGACY_MALFORMED_KEY ":dead-letter" ":malformed"
        (by decide) (by decide) (by decide) (by decide) (by decide) (by decide)

/-- From every content of the streams, with stops and restarts at any command: no entry of a
legacy stream and its venue stream is lost or doubled, a run that returns has moved the
legacy entries behind the venue's own in order, and a run that is not stopped returns. -/
theorem adoptLegacyStreams_conserves (venue : String) (r0 : StreamStore φ) {events : List Event}
    {s : System φ} (h : runFrom (step (.forVenue venue)) (start (.forVenue venue) r0) events = some s) :
    (∀ p ∈ (RedisBatchStore.forVenue venue).pairs,
        (s.store.fieldsAt p.1 : Multiset φ) + s.store.fieldsAt p.2 =
          (r0.fieldsAt p.1 : Multiset φ) + r0.fieldsAt p.2) ∧
      (∀ moved, s.progress = .returned moved → ∀ p ∈ (RedisBatchStore.forVenue venue).pairs,
        s.store p.1 = none ∧ s.store.fieldsAt p.2 = r0.fieldsAt p.2 ++ r0.fieldsAt p.1) ∧
      Leads (step (.forVenue venue)) (fun e => ∃ now, e = .command now)
        (fun e => ∃ now, e = .command now) (fun s => ∃ moved, s.progress = .returned moved) s := by
  have hkeys := separateKeys_forVenue venue
  have hinv := runFrom_inv (Inv (RedisBatchStore.forVenue venue).pairs r0)
    (inv_step hkeys) (inv_start hkeys r0) h
  refine ⟨fun p hp => ?_, fun moved hreturned p hp => ?_, leads_to_return hkeys hinv⟩
  · have hcontents := hinv.contents p hp
    rw [contents, contents] at hcontents
    rw [Multiset.add_comm, Multiset.coe_add, hcontents, ← Multiset.coe_add, Multiset.add_comm]
  · have hsound := hinv.sound
    rw [hreturned] at hsound
    have hgone : s.store p.1 = none := hsound p hp
    have hcontents := hinv.contents p hp
    rw [contents, contents, StreamStore.fieldsAt_of_none hgone, List.append_nil] at hcontents
    exact ⟨hgone, hcontents⟩

/-- Two legacy entries, one in the venue's stream, and a stop between the two moves. -/
theorem adoptLegacyStreams_conserves_stopped :
    ∃ r0 : StreamStore String, ∃ s,
      (∀ p ∈ (RedisBatchStore.forVenue "skinport").pairs,
        (s.store.fieldsAt p.1 : Multiset String) + s.store.fieldsAt p.2 =
          (r0.fieldsAt p.1 : Multiset String) + r0.fieldsAt p.2) ∧
      (∀ moved, s.progress = .returned moved → ∀ p ∈ (RedisBatchStore.forVenue "skinport").pairs,
        s.store p.1 = none ∧ s.store.fieldsAt p.2 = r0.fieldsAt p.2 ++ r0.fieldsAt p.1) ∧
      Leads (step (.forVenue "skinport")) (fun e => ∃ now, e = .command now)
        (fun e => ∃ now, e = .command now) (fun s => ∃ moved, s.progress = .returned moved) s := by
  let r0 : StreamStore String := fun key =>
    if key = LEGACY_PENDING_KEY then some ((Stream.empty.add 1 "a").add 2 "b")
    else if key = "listener:ingest:skinport:pending" then some (Stream.empty.add 3 "c")
    else none
  obtain ⟨s, hs⟩ := Option.isSome_iff_exists.mp (by decide +kernel :
    (runFrom (step (.forVenue "skinport")) (start (.forVenue "skinport") r0)
      [.command 4, .command 4, .command 4, .command 4, .command 4, .restart, .command 5]).isSome)
  exact ⟨r0, s, adoptLegacyStreams_conserves "skinport" r0 hs⟩

end BrandSniper.StreamAdoption
