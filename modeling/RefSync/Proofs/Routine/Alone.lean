/-
Routines with nobody else at work, step by step. Each rule goes on with the rest of the
routine in the state that the step leaves behind.
-/

import RefSync.Proofs.Disk.Accepts
import RefSync.Proofs.Routine.Abiding
import RefSync.Proofs.Routine.Schedule
import RefSync.Routine.Documents

namespace RefSync.Routine

section

variable {ε α β : Type} {answer : Answering ε} {now : Engine × ε}
  {post : Except Failure β → Engine × ε → Prop}

theorem leads_pure {value : β} (holds : post (.ok value) now) :
    Leads answer (pure value) now post :=
  fun _ => holds

theorem leads_throw {fault : Fault} (holds : post (.error [fault]) now) :
    Leads answer (throw fault) now post :=
  fun _ => holds

theorem leads_engine {rest : Engine → Routine β} (goesOn : Leads answer (rest now.1) now post) :
    Leads answer (engine >>= rest) now post :=
  goesOn

theorem leads_registry {rest : Registry → Routine β}
    (goesOn : Leads answer (rest now.1.registry) now post) :
    Leads answer (registry >>= rest) now post :=
  goesOn

theorem leads_modify {change : Engine → Engine} {rest : Unit → Routine β}
    (goesOn : Leads answer (rest ()) (change now.1, now.2) post) :
    Leads answer (modify change >>= rest) now post :=
  goesOn

theorem leads_modifyRegistry {change : Registry → Registry} {rest : Unit → Routine β}
    (goesOn : Leads answer (rest ())
      ({ now.1 with registry := change now.1.registry }, now.2) post) :
    Leads answer (modifyRegistry change >>= rest) now post :=
  goesOn

theorem leads_log {level : Level} {message : String} {rest : Unit → Routine β}
    (goesOn : Leads answer (rest ())
      ({ now.1 with log := now.1.log ++ [⟨level, message⟩] }, now.2) post) :
    Leads answer (log level message >>= rest) now post :=
  goesOn

theorem leads_ask {asked : Request} {rest : asked.Answer → Routine β}
    (goesOn : Leads answer (rest (answer asked now).1) (answer asked now).2 post) :
    Leads answer (ask asked >>= rest) now post := by
  intro start
  refine ⟨trivial, ?_⟩
  rintro _ rfl
  refine ⟨trivial, ?_⟩
  rintro _ rfl
  exact goesOn _

theorem leads_ok {κ : Type} {toFault : κ → Fault} {value : α} {rest : α → Routine β}
    {outcome : Except κ α} (same : outcome = .ok value)
    (goesOn : Leads answer (rest value) now post) :
    Leads answer (ofExcept toFault outcome >>= rest) now post :=
  same ▸ goesOn

/-- What comes after a routine comes after its last part. -/
theorem leads_assoc {γ : Type} {routine : Routine α} {middle : α → Routine γ} {rest : γ → Routine β}
    (goesOn : Leads answer (routine >>= fun value => middle value >>= rest) now post) :
    Leads answer ((routine >>= middle) >>= rest) now post := by
  change Leads answer ((routine.bind middle).bind rest) now post
  rw [bind_assoc]
  exact goesOn

theorem leads_onlyIf {condition : Bool} {routine : Routine Unit}
    {post : Except Failure Unit → Engine × ε → Prop}
    (done : condition = true → Leads answer routine now post)
    (skipped : condition = false → post (.ok ()) now) :
    Leads answer (onlyIf condition routine) now post := by
  cases condition with
  | true => exact done rfl
  | false => exact fun _ => skipped rfl

/-- A part that may be skipped, and what follows it in either case. -/
theorem leads_whenever {condition : Bool} {routine : Routine Unit} {rest : Unit → Routine β}
    {middle : Except Failure Unit → Engine × ε → Prop}
    (done : condition = true → Leads answer routine now middle)
    (skipped : condition = false → middle (.ok ()) now)
    (goesOn : ∀ later, middle (.ok ()) later → Leads answer (rest ()) later post)
    (fails : ∀ failure later, middle (.error failure) later → post (.error failure) later) :
    Leads answer (onlyIf condition routine >>= rest) now post :=
  (leads_onlyIf done skipped).bind (fun _ later => goesOn later) fails

end

/-- Whether a routine that nobody else disturbs ends without a failure, on every schedule, and as it
should. -/
def Completes {ε : Type} (answer : Answering ε) (routine : Routine Unit) (before : Engine × ε)
    (post : Engine × ε → Prop) : Prop :=
  (∃ after, Finishes answer routine before (.ok ()) after)
    ∧ ∀ result after, Finishes answer routine before result after → result = .ok () ∧ post after

theorem Leads.completes {ε : Type} {answer : Answering ε} {now : Engine × ε} {routine : Routine Unit}
    {post : Engine × ε → Prop}
    (leads : Leads answer routine now fun result later => result = .ok () ∧ post later) :
    Completes answer routine now post := by
  have finishes := run_finishes answer routine now
  rw [(leads.finishes finishes).1] at finishes
  exact ⟨⟨_, finishes⟩, fun _ _ ended => leads.finishes ended⟩

/-! ### Documents -/

section

variable {β : Type} {now : Engine × Disk} {post : Except Failure β → Engine × Disk → Prop}
  {path : String}

theorem leads_read {rest : Except ReadFault Json → Routine β}
    (goesOn : Leads Disk.alone (rest (now.2.read path)) now post) :
    Leads Disk.alone (ask (.read path) >>= rest) now post :=
  leads_ask goesOn

theorem leads_readManifest {rest : Except Fault Manifest → Routine β}
    (goesOn : Leads Disk.alone (rest (manifestOf (now.2.read path))) now post) :
    Leads Disk.alone (readManifest path >>= rest) now post := by
  have reads : Leads Disk.alone (ask (.read path) >>= fun given => rest (manifestOf given)) now post :=
    leads_ask goesOn
  exact reads

theorem leads_readObject? {found : Option Document} (finds : now.2.Finds? path found)
    {rest : Option Document → Routine β} (goesOn : Leads Disk.alone (rest found) now post) :
    Leads Disk.alone (readObject? path >>= rest) now post := by
  intro start
  refine ⟨trivial, ?_⟩
  rintro _ rfl
  refine ⟨trivial, ?_⟩
  rintro _ rfl
  cases found with
  | none =>
      obtain ⟨shown, missing⟩ := finds
      have reads : (Disk.alone (.read path) now).1 = .error (.missing shown) := missing
      rw [reads]
      exact goesOn now
  | some document =>
      have reads : (Disk.alone (.read path) now).1 = .ok (.obj document) := finds
      rw [reads]
      exact goesOn now

theorem leads_writeDocument {document : Document} (writes : (now.2.write path document).1 = .ok ())
    {rest : Unit → Routine β}
    (goesOn : Leads Disk.alone (rest ()) (now.1, (now.2.write path document).2) post) :
    Leads Disk.alone (writeDocument path document >>= rest) now post := by
  intro start
  refine ⟨trivial, ?_⟩
  rintro _ rfl
  refine ⟨trivial, ?_⟩
  rintro _ rfl
  rw [Disk.alone_write, writes]
  exact goesOn _

end

end RefSync.Routine
