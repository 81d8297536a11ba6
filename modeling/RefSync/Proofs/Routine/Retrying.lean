/-
Reading until it succeeds. The reads of a routine are answered from a stream of outcomes, and what it
does is written down in order. So many attempts are made as there may be, at least one; each pause
is longer than the one before, and the last failure is followed by none.
-/

import Mathlib.Data.Nat.Find
import RefSync.Routine.Documents
import RefSync.Routine.Run

namespace RefSync.Routine

/-- What a routine does that reads a document again and again. -/
inductive Act where
  | read (path : String)
  | pause (length : Duration)
deriving DecidableEq, Repr

/-- The outcomes of reads, how many of them are used up, and what has been done so far. -/
structure Feed where
  outcomes : Nat → Except ReadFault Json
  reads : Nat := 0
  acts : List Act := []

namespace Feed

/-- Answers each read with the next outcome. Whatever else is asked is left to others. -/
def answer (others : (asked : Request) → asked.Answer) : Answering Feed
  | .read path, (engine, feed) =>
      (feed.outcomes feed.reads, engine,
        { feed with reads := feed.reads + 1, acts := feed.acts ++ [.read path] })
  | .pause length, (engine, feed) => ((), engine, { feed with acts := feed.acts ++ [.pause length] })
  | asked, state => (others asked, state)

end Feed

/-- A read and some more of them after it, with the pauses in between. -/
def attemptsFrom (path : String) (delay : Rat) (failures more : Nat) : List Act :=
  .read path :: (List.range more).flatMap fun index =>
    [.pause (.exact (delay * (8 / 5) ^ (failures + index))), .read path]

theorem attemptsFrom_succ (path : String) (delay : Rat) (failures more : Nat) :
    attemptsFrom path delay failures (more + 1)
      = [.read path, .pause (.exact (delay * (8 / 5) ^ failures))]
        ++ attemptsFrom path delay (failures + 1) more := by
  have shifted (index : Nat) : failures + index.succ = failures + 1 + index := by omega
  unfold attemptsFrom
  rw [List.range_succ_eq_map, List.flatMap_cons, List.flatMap_map,
    funext fun index => congrArg (fun number => [Act.pause (.exact (delay * (8 / 5) ^ number)), .read path])
      (shifted index)]
  rfl

theorem run_ask {ε β : Type} (answer : Answering ε) (asked : Request)
    (rest : asked.Answer → Routine β) (state : Engine × ε) :
    (ask asked >>= rest).run answer state
      = (rest (answer asked state).1).run answer (answer asked state).2 :=
  rfl

section

variable (others : (asked : Request) → asked.Answer) {path shown : String} {delay : Rat} {engine : Engine}

/-- A failed attempt that is not the last one leads to the next. -/
theorem run_readAgain_succ {feed : Feed} {cause : ReadFault} (more failures : Nat)
    (fails : feed.outcomes feed.reads = .error cause) :
    (readAgain path shown (.exact delay) (more + 1) failures).run (Feed.answer others) (engine, feed)
      = (readAgain path shown (.exact delay) more (failures + 1)).run (Feed.answer others)
          (engine, { feed with
            reads := feed.reads + 1
            acts := feed.acts ++ [.read path, .pause (.exact (delay * (8 / 5) ^ failures))] }) := by
  have written : feed.acts ++ [.read path, .pause (.exact (delay * (8 / 5) ^ failures))]
      = (feed.acts ++ [.read path]) ++ [.pause (.exact (delay * (8 / 5) ^ failures))] := by
    rw [List.append_assoc]
    rfl
  rw [readAgain.eq_def, run_ask, Feed.answer, fails, written]
  rfl

/-- Where an attempt succeeds after some that did not, it is the last one. -/
theorem run_readAgain_of_ok {value : Json} (more failures count : Nat) (within : count ≤ more)
    (feed : Feed) (fails : ∀ index < count, (feed.outcomes (feed.reads + index)).isOk = false)
    (succeeds : feed.outcomes (feed.reads + count) = .ok value) :
    (readAgain path shown (.exact delay) more failures).run (Feed.answer others) (engine, feed)
      = (.ok (.ok value), engine, { feed with
          reads := feed.reads + count + 1
          acts := feed.acts ++ attemptsFrom path delay failures count }) := by
  induction count generalizing more failures feed with
  | zero =>
      rw [Nat.add_zero] at succeeds
      rw [readAgain.eq_def, run_ask, Feed.answer, succeeds]
      rfl
  | succ count ih =>
      obtain ⟨rest, rfl⟩ : ∃ rest, more = rest + 1 := ⟨more - 1, by omega⟩
      have first := fails 0 (Nat.zero_lt_succ count)
      rw [Nat.add_zero] at first
      cases outcome : feed.outcomes feed.reads with
      | ok value =>
          rw [outcome] at first
          cases first
      | error cause =>
          have shifted (index : Nat) : feed.reads + 1 + index = feed.reads + (index + 1) := by omega
          rw [run_readAgain_succ others rest failures outcome, ih rest (failures + 1) (by omega),
            attemptsFrom_succ, List.append_assoc, shifted]
          · intro index below
            rw [shifted]
            exact fails (index + 1) (by omega)
          · rw [shifted]
            exact succeeds

/-- Where no attempt succeeds, as many are made as there may be, and the last cause is told. -/
theorem run_readAgain_of_error {cause : ReadFault} (more failures : Nat) (feed : Feed)
    (fails : ∀ index < more, (feed.outcomes (feed.reads + index)).isOk = false)
    (last : feed.outcomes (feed.reads + more) = .error cause) :
    (readAgain path shown (.exact delay) more failures).run (Feed.answer others) (engine, feed)
      = (.ok (.error ⟨shown, failures + more + 1, cause⟩), engine, { feed with
          reads := feed.reads + more + 1
          acts := feed.acts ++ attemptsFrom path delay failures more }) := by
  induction more generalizing failures feed with
  | zero =>
      rw [Nat.add_zero] at last
      rw [readAgain.eq_def, run_ask, Feed.answer, last]
      rfl
  | succ more ih =>
      have first := fails 0 (Nat.zero_lt_succ more)
      rw [Nat.add_zero] at first
      cases outcome : feed.outcomes feed.reads with
      | ok value =>
          rw [outcome] at first
          cases first
      | error earlier =>
          have shifted (number index : Nat) : number + 1 + index = number + (index + 1) := by omega
          rw [run_readAgain_succ others more failures outcome, ih (failures + 1), attemptsFrom_succ,
            List.append_assoc, shifted, shifted]
          · intro index below
            rw [shifted]
            exact fails (index + 1) (by omega)
          · rw [shifted]
            exact last

/-- Reading ends with the first success, after the pauses that the failures before it call for, or
else with the cause of the last failure, after all other failures have had their pauses. -/
theorem retrying_reads_stop (outcomes : Nat → Except ReadFault Json) (path shown : String)
    (attempts : Int) (delay : Rat) (engine : Engine) :
    let most := (max 1 attempts).toNat
    let ended := (readRetrying path shown attempts (.exact delay)).run (Feed.answer others)
      (engine, { outcomes := outcomes })
    ended.2.2.reads ≤ most
      ∧ (∀ failures value, failures < most →
          (∀ index < failures, (outcomes index).isOk = false) → outcomes failures = .ok value →
          ended = (.ok (.ok value), engine,
            { outcomes := outcomes, reads := failures + 1, acts := attemptsFrom path delay 0 failures }))
      ∧ ∀ cause, (∀ index < most, (outcomes index).isOk = false) →
          outcomes (most - 1) = .error cause →
          ended = (.ok (.error ⟨shown, most, cause⟩), engine,
            { outcomes := outcomes, reads := most, acts := attemptsFrom path delay 0 (most - 1) }) := by
  intro most ended
  obtain ⟨more, isMost, isMore⟩ : ∃ more, most = more + 1 ∧ attempts.toNat - 1 = more :=
    ⟨attempts.toNat - 1, by omega, rfl⟩
  have ends : ended = (readAgain path shown (.exact delay) more 0).run (Feed.answer others)
      (engine, { outcomes := outcomes }) := by
    rw [← isMore]
    rfl
  have succeeds (failures : Nat) (value : Json) (within : failures < most)
      (fails : ∀ index < failures, (outcomes index).isOk = false)
      (ok : outcomes failures = .ok value) :
      ended = (.ok (.ok value), engine,
        { outcomes := outcomes, reads := failures + 1, acts := attemptsFrom path delay 0 failures }) := by
    rw [ends, run_readAgain_of_ok others more 0 failures (by omega) _ (by simpa using fails)
      (by simpa using ok)]
    simp
  have gives (cause : ReadFault) (fails : ∀ index < most, (outcomes index).isOk = false)
      (last : outcomes (most - 1) = .error cause) :
      ended = (.ok (.error ⟨shown, most, cause⟩), engine,
        { outcomes := outcomes, reads := most, acts := attemptsFrom path delay 0 (most - 1) }) := by
    have before : ∀ index < more, (outcomes index).isOk = false := fun index below =>
      fails index (by omega)
    rw [isMost, Nat.add_sub_cancel] at last
    rw [ends, isMost, run_readAgain_of_error others more 0 _ (by simpa using before) (by simpa using last)]
    simp
  refine ⟨?_, succeeds, gives⟩
  by_cases some : ∃ index, index < most ∧ (outcomes index).isOk = true
  · obtain ⟨within, ok⟩ := Nat.find_spec some
    have fails : ∀ index < Nat.find some, (outcomes index).isOk = false := fun index below => by
      have none := Nat.find_min some below
      simpa [lt_trans below within] using none
    cases found : outcomes (Nat.find some) with
    | error cause =>
        rw [found] at ok
        cases ok
    | ok value =>
        rw [succeeds _ value within fails found]
        exact within
  · have fails : ∀ index < most, (outcomes index).isOk = false := fun index below => by
      simpa [below] using not_exists.mp some index
    cases found : outcomes (most - 1) with
    | ok value =>
        have last := fails (most - 1) (by omega)
        rw [found] at last
        cases last
    | error cause =>
        rw [gives cause fails found]

end

/-- A document that is missing at first, and then only half of it is there. -/
def tornTwice : Nat → Except ReadFault Json
  | 0 => .error (.missing "/p/a")
  | 1 => .error (.malformed (.at ['['] .value 1))
  | _ => .ok (.arr [])

/-- The third read succeeds, after two pauses. Where there may be no attempt at all, one is made. -/
theorem torn_document_is_reread : ∃ others : (asked : Request) → asked.Answer,
    (readRetrying "a" "/p/a" 5 (.exact (1 / 100))).run (Feed.answer others) ({}, { outcomes := tornTwice })
        = (.ok (.ok (.arr [])), {}, { outcomes := tornTwice, reads := 3, acts :=
            [.read "a", .pause (.exact (1 / 100)), .read "a", .pause (.exact (2 / 125)), .read "a"] })
      ∧ (readRetrying "a" "/p/a" (-2) (.exact 1)).run (Feed.answer others) ({}, { outcomes := tornTwice })
        = (.ok (.error ⟨"/p/a", 1, .missing "/p/a"⟩), {},
            { outcomes := tornTwice, reads := 1, acts := [.read "a"] }) := by
  let others : (asked : Request) → asked.Answer := fun
    | .read _ => .ok (.obj [])
    | .write _ _ | .removeDirectory _ => .ok ()
    | .isPresent _ | .hasJsx _ => .ok false
    | .discover _ => .ok []
    | .sources _ => []
    | .hasFiles _ => false
    | .pause _ => ()
  have acts : attemptsFrom "a" (1 / 100) 0 2
      = [.read "a", .pause (.exact (1 / 100)), .read "a", .pause (.exact (2 / 125)), .read "a"] := by
    decide +kernel
  refine ⟨others, ?_, ?_⟩
  · rw [(retrying_reads_stop others tornTwice "a" "/p/a" 5 (1 / 100) {}).2.1 2 (.arr []) (by decide)
      (by decide) rfl, acts]
  · exact (retrying_reads_stop others tornTwice "a" "/p/a" (-2) 1 {}).2.2 (.missing "/p/a") (by decide) rfl

end RefSync.Routine
