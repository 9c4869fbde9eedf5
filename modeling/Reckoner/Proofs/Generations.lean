import Mathlib.Algebra.Group.Nat.Defs
import Reckoner.Proofs.Runs
import Reckoner.Readout

/-! # Generations

The generation of a registry counts what it published: the discoveries, the reloads and the
registrations that were not refused (`generation_run`).  No other call touches the published
functions (`effect`), so they are the same wherever the generation is the same, and a snapshot
stands for the generation at which it was taken (`generation_detects`).
-/

namespace Reckoner

/-! ## Questions -/

/-- What can be asked of a set of functions. -/
inductive Question where
  | evaluate (text : String)
  | readout (text : String) (mode : Mode)
  | list
  | get (name : String)
  | invoke (name : String) (args : List Float)

/-- What such a question is answered with. -/
inductive Answer where
  | value (result : Except Fault Float)
  | readout (shown : Readout)
  | functions (listed : List Function)
  | function (found : Option Function)
  | result (called : Option (Except Fault Float))

def Repertoire.answer (functions : Repertoire) : Question → Answer
  | .evaluate text => .value (functions.evaluate text)
  | .readout text mode => .readout (functions.readout text mode)
  | .list => .functions functions.functions
  | .get name => .function (functions.get? name)
  | .invoke name args => .result ((functions.get? name).map fun f => f.invoke args)

namespace Registry

/-! ## Calls -/

/-- The generation as it is kept in 64 bits. -/
def counter (registry : Registry) : UInt64 :=
  .ofNat registry.generation

/-- Publishing counts on, past the last generation from zero again. -/
theorem counter_publish (registry : Registry) (functions : Repertoire) :
    (registry.publish functions).counter = registry.counter + 1 := by
  simp [counter, publish]

/-- A call of a registry. Snapshots are numbered in the order in which they are taken. -/
inductive Call where
  | change (step : Step)
  | ask (question : Question)
  | generation
  | snapshot
  | askSnapshot (slot : Nat) (question : Question)

/-- What a call gives back. -/
inductive Reply where
  | done
  | removed (count : Nat)
  | report (report : Discovery.Report)
  | registered (outcome : Except Fault Unit)
  | generation (counter : UInt64)
  | slot (slot : Nat)
  /-- A slot without a snapshot gives no answer. -/
  | answer (given : Option Answer)

/-- Whether the call is a discovery or a reload. -/
def Call.isPass : Call → Bool
  | .change .discover | .change .reload => true
  | _ => false

/-- Whether it is the reply to a registration that was not refused. -/
def Reply.isRegistered : Reply → Bool
  | .registered (.ok ()) => true
  | _ => false

/-- What a step gives back. -/
def replyTo (registry : Registry) : Step → Reply
  | .uninstall label => .removed (registry.catalogue.countLabel label)
  | .discover => .report registry.discover.2
  | .reload => .report registry.reload.2
  | .register f => .registered ((registry.register f).map fun _ => ())
  | .install _ | .vary _ => .done

/-- A registry with the snapshots that were taken of it. -/
structure Watched where
  registry : Registry
  snapshots : List Repertoire

/-- A registry that has published nothing yet, and no snapshots. -/
def watch (catalogue : Catalogue) (exclusions : Exclusions) : Watched :=
  ⟨create catalogue exclusions, []⟩

namespace Watched

/-- The functions that are published now. -/
def published (watched : Watched) : Repertoire :=
  watched.registry.functions

/-- What is there after a call, and its reply. -/
def call (watched : Watched) : Call → Watched × Reply
  | .change step =>
    ({ watched with registry := watched.registry.step step }, watched.registry.replyTo step)
  | .ask question => (watched, .answer (some (watched.published.answer question)))
  | .generation => (watched, .generation watched.registry.counter)
  | .snapshot =>
    ({ watched with snapshots := watched.snapshots ++ [watched.published] },
      .slot watched.snapshots.length)
  | .askSnapshot slot question =>
    (watched, .answer (watched.snapshots[slot]?.map fun kept => kept.answer question))

/-- Call after call, with the replies. -/
def run (watched : Watched) : List Call → Watched × List Reply
  | [] => (watched, [])
  | first :: rest =>
    let (next, reply) := watched.call first
    let (last, replies) := next.run rest
    (last, reply :: replies)

/-- How many of the calls publish. -/
def publications (watched : Watched) (calls : List Call) : Nat :=
  calls.countP Call.isPass + (watched.run calls).2.countP Reply.isRegistered

variable {watched : Watched}

@[simp] theorem run_nil (watched : Watched) : watched.run [] = (watched, []) := rfl

@[simp] theorem run_cons (watched : Watched) (first : Call) (rest : List Call) :
    watched.run (first :: rest) =
      (((watched.call first).1.run rest).1,
        (watched.call first).2 :: ((watched.call first).1.run rest).2) := rfl

theorem run_append (watched : Watched) (calls more : List Call) :
    watched.run (calls ++ more) =
      (((watched.run calls).1.run more).1,
        (watched.run calls).2 ++ ((watched.run calls).1.run more).2) := by
  induction calls generalizing watched with
  | nil => rfl
  | cons first rest ih => simp [ih]

theorem publications_append (watched : Watched) (calls more : List Call) :
    watched.publications (calls ++ more) =
      watched.publications calls + (watched.run calls).1.publications more := by
  simp only [publications, run_append, List.countP_append]
  omega

theorem publications_cons (watched : Watched) (first : Call) (rest : List Call) :
    watched.publications (first :: rest) =
      watched.publications [first] + (watched.call first).1.publications rest :=
  publications_append watched [first] rest

/-! ## What one call does -/

/-- All that a call can do to the published functions and their generation. -/
inductive Effect (watched : Watched) (call : Call) : Prop where
  | publishes (once : watched.publications [call] = 1)
      (counted : (watched.call call).1.registry.generation = watched.registry.generation + 1)
  | leaves (never : watched.publications [call] = 0)
      (kept : (watched.call call).1.published = watched.published)
      (uncounted : (watched.call call).1.registry.generation = watched.registry.generation)

theorem effect_register (watched : Watched) (f : Function) :
    Effect watched (.change (.register f)) := by
  -- The set of functions decides, and the registry publishes only what the set has accepted.
  cases inserted : watched.registry.functions.insert f with
  | error fault =>
    have refused : watched.registry.register f = .error fault := by rw [register, inserted]
    have stays : watched.registry.step (.register f) = watched.registry := by rw [step, refused]
    have reply : (watched.call (.change (.register f))).2 = .registered (.error fault) := by
      simp [call, replyTo, refused, Except.map]
    refine .leaves ?_ ?_ ?_
    · simp [publications, reply, Call.isPass, Reply.isRegistered]
    · simp [call, published, stays]
    · simp [call, stays]
  | ok next =>
    have accepted : watched.registry.register f = .ok (watched.registry.publish next) := by
      rw [register, inserted]
    have moves : watched.registry.step (.register f) = watched.registry.publish next := by
      rw [step, accepted]
    have reply : (watched.call (.change (.register f))).2 = .registered (.ok ()) := by
      simp [call, replyTo, accepted, Except.map]
    apply Effect.publishes
    · simp [publications, reply, Call.isPass, Reply.isRegistered]
    · simp [call, moves, publish]

theorem effect (watched : Watched) (call : Call) : Effect watched call := by
  cases call with
  | change step =>
    cases step with
    | discover | reload => exact .publishes rfl rfl
    | register f => exact watched.effect_register f
    | install _ | uninstall _ | vary _ => exact .leaves rfl rfl rfl
  | ask _ | generation | snapshot | askSnapshot _ _ => exact .leaves rfl rfl rfl

/-- A snapshot stays in its slot. -/
theorem snapshots_call (watched : Watched) (call : Call) :
    watched.snapshots <+: (watched.call call).1.snapshots := by
  cases call with
  | snapshot => exact List.prefix_append _ _
  | change _ | ask _ | generation | askSnapshot _ _ => exact List.prefix_rfl

/-! ## What a run does -/

theorem generation_run (watched : Watched) (calls : List Call) :
    (watched.run calls).1.registry.generation =
      watched.registry.generation + watched.publications calls := by
  induction calls generalizing watched with
  | nil => rfl
  | cons first rest ih =>
    rw [run_cons, ih, publications_cons]
    cases watched.effect first with
    | publishes once counted => omega
    | leaves never kept uncounted => omega

theorem published_run {calls : List Call} (never : watched.publications calls = 0) :
    (watched.run calls).1.published = watched.published := by
  induction calls generalizing watched with
  | nil => rfl
  | cons first rest ih =>
    rw [publications_cons] at never
    cases watched.effect first with
    | publishes once counted => omega
    | leaves _ kept uncounted =>
      have later : ((watched.call first).1.run rest).1.published = (watched.call first).1.published :=
        ih (by omega)
      exact later.trans kept

theorem snapshots_run (watched : Watched) (calls : List Call) :
    watched.snapshots <+: (watched.run calls).1.snapshots := by
  induction calls generalizing watched with
  | nil => exact List.prefix_rfl
  | cons first rest ih => exact (watched.snapshots_call first).trans (ih _)

/-- Between two moments with the same generation nothing was published. -/
theorem published_of_generation {past now : List Call} (order : past <+: now)
    (same : (watched.run past).1.registry.generation = (watched.run now).1.registry.generation) :
    (watched.run past).1.published = (watched.run now).1.published := by
  obtain ⟨between, rfl⟩ := order
  -- Whatever is published between the two moments counts, and nothing is ever taken off.
  rw [run_append] at same ⊢
  rw [generation_run (watched.run past).1] at same
  exact (published_run (by omega)).symm

/-- What was published when a snapshot was taken is what stands in its slot. -/
theorem snapshot_kept {past now : List Call} (taken : past ++ [.snapshot] <+: now) :
    (watched.run now).1.snapshots[(watched.run past).1.snapshots.length]? =
      some (watched.run past).1.published := by
  obtain ⟨later, rfl⟩ := taken
  have held : (watched.run (past ++ [.snapshot])).1.snapshots =
      (watched.run past).1.snapshots ++ [(watched.run past).1.published] := by
    rw [run_append]
    rfl
  -- The slot is the number of snapshots before it, and later ones go behind.
  have grown := snapshots_run (watched.run (past ++ [.snapshot])).1 later
  rw [held] at grown
  obtain ⟨others, slots⟩ := grown
  rw [run_append, ← slots]
  simp

/-! ## The counter -/

theorem publications_of_prefix (watched : Watched) {past calls : List Call} (begun : past <+: calls) :
    watched.publications past ≤ watched.publications calls := by
  obtain ⟨later, rfl⟩ := begun
  rw [publications_append]
  exact Nat.le_add_right _ _

theorem toNat_counter {registry : Registry} (few : registry.generation < 2 ^ 64) :
    registry.counter.toNat = registry.generation :=
  UInt64.toNat_ofNat_of_lt' few

/-- Until the counter is past its end it tells any two moments of a run apart between which
something was published. -/
theorem published_of_counter {calls one other : List Call}
    (few : (watched.run calls).1.registry.generation < 2 ^ 64) (first : one <+: calls)
    (second : other <+: calls)
    (same : (watched.run one).1.registry.counter = (watched.run other).1.registry.counter) :
    (watched.run one).1.published = (watched.run other).1.published := by
  -- No moment of the run is past the end of the counter.
  have below : ∀ past, past <+: calls → (watched.run past).1.registry.generation < 2 ^ 64 := by
    intro past begun
    have fewer := watched.publications_of_prefix begun
    rw [generation_run] at few ⊢
    omega
  have generations : (watched.run one).1.registry.generation =
      (watched.run other).1.registry.generation := by
    rw [← toNat_counter (below one first), same, toNat_counter (below other second)]
  cases List.prefix_or_prefix_of_prefix first second with
  | inl earlier => exact published_of_generation earlier generations
  | inr later => exact (published_of_generation later generations.symm).symm

end Watched

/-- As long as a registry has published fewer than `2 ^ 64` times, its generation is the number of
discoveries, reloads and accepted registrations so far, and a call that is none of these leaves the
generation and the functions as they are.  So two moments of a run with the same generation have the
same functions and the same answers, and a snapshot answers at any later moment what the registry
answers at its generation. -/
theorem generation_detects (catalogue : Catalogue) (exclusions : Exclusions) (calls : List Call)
    (few : (watch catalogue exclusions).publications calls < 2 ^ 64) :
    let start := watch catalogue exclusions
    let moment (past : List Call) := (start.run past).1
    (∀ past, past <+: calls →
      ((moment past).call .generation).2 = .generation (moment past).registry.counter ∧
        (moment past).registry.counter.toNat =
          past.countP Call.isPass + (start.run past).2.countP Reply.isRegistered) ∧
      (∀ past call, call.isPass = false → ((moment past).call call).2.isRegistered = false →
        ((moment past).call call).1.published = (moment past).published ∧
          ((moment past).call call).1.registry.counter = (moment past).registry.counter) ∧
      (∀ one other, one <+: calls → other <+: calls →
        (moment one).registry.counter = (moment other).registry.counter →
          (moment one).published = (moment other).published ∧
            ∀ question, ((moment one).call (.ask question)).2 =
              ((moment other).call (.ask question)).2) ∧
      ∀ past now other, past ++ [.snapshot] <+: now → now <+: calls → other <+: calls →
        (moment past).registry.counter = (moment other).registry.counter →
          ∃ slot, ((moment past).call .snapshot).2 = .slot slot ∧
            ∀ question, ((moment now).call (.askSnapshot slot question)).2 =
              ((moment other).call (.ask question)).2 := by
  intro start moment
  have counted : ∀ past, (moment past).registry.generation = start.publications past := by
    intro past
    rw [Watched.generation_run]
    exact Nat.zero_add _
  have bound : (moment calls).registry.generation < 2 ^ 64 := by
    rw [counted]
    exact few
  refine ⟨?_, ?_, ?_, ?_⟩
  · intro past begun
    have fewer := start.publications_of_prefix begun
    rw [← counted, ← counted] at fewer
    refine ⟨rfl, ?_⟩
    rw [Watched.toNat_counter (by omega), counted]
    rfl
  · intro past call pass unregistered
    cases (moment past).effect call with
    | publishes once counted => simp [Watched.publications, pass, unregistered] at once
    | leaves never kept uncounted => exact ⟨kept, by rw [counter, uncounted, counter]⟩
  · intro one other first second same
    have published := Watched.published_of_counter bound first second same
    refine ⟨published, fun question => ?_⟩
    simp only [Watched.call]
    rw [published]
  · intro past now other taken begun second same
    have first : past <+: calls := ((List.prefix_append _ _).trans taken).trans begun
    have published := Watched.published_of_counter bound first second same
    refine ⟨(moment past).snapshots.length, rfl, fun question => ?_⟩
    simp only [Watched.call]
    rw [Watched.snapshot_kept taken, Option.map_some, published]

/-- A refused registration and a change of the catalogue do not count, and the snapshot still calls
the function that the reload has dropped. -/
theorem generation_detects_dropped :
    let first : Candidate := ⟨"first", .direct (.returned (.counter "f"))⟩
    let calls : List Call := [.change .discover, .snapshot, .change (.register (.refusing "f")),
      .change (.uninstall "first"), .ask (.get "f"), .change .reload]
    let start := watch ⟨[first]⟩ {}
    start.publications calls = 2 ∧
      (start.run calls).1.registry.counter.toNat = 2 ∧
      (start.run calls).1.published.names = [] ∧
      ((start.run calls).1.call (.askSnapshot 0 (.get "f"))).2 =
        .answer (some (.function (some (Function.counter "f").guard))) := by
  intro first calls start
  have few : start.publications calls = 2 := rfl
  obtain ⟨counted, -, -, kept⟩ := generation_detects ⟨[first]⟩ {} calls (by rw [few]; decide)
  obtain ⟨slot, taken, answers⟩ := kept [.change .discover] calls [.change .discover]
    (by simp [calls]) List.prefix_rfl (by simp [calls]) rfl
  obtain rfl : slot = 0 := by
    cases taken
    rfl
  refine ⟨few, ?_, rfl, ?_⟩
  · rw [(counted calls List.prefix_rfl).2]
    exact few
  · rw [answers]
    rfl

end Registry
end Reckoner
