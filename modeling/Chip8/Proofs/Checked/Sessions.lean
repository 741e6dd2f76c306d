import Chip8.Proofs.Checked.Dump
import Chip8.Proofs.Checked.Stepping
import Chip8.Proofs.Footprint
import Chip8.Proofs.FrameDelivery

/-!
# Checked sessions

A host builds a checked machine and from then on steps, resets, refreshes and
dumps it in any order. Nothing of that fails: what comes of it is what comes of
the machine itself. And the host is asked for nothing but what it can rely on.
-/
namespace Chip8.Checked

/-- What a host does to its machine. A dump only looks. -/
inductive Use
  | operate (operation : Operation)
  | dump (now : Instant) (name : String)

/-- What came of one operation. -/
structure Response where
  machine : Machine
  calls : List Call
  reply : Reply

/-- What came of uses one after the other. -/
structure Record where
  machine : Machine
  calls : List Call := []
  replies : List Reply := []
  texts : List (List Char) := []

namespace Machine

def perform (machine : Machine) : Operation → Option Response
  | .step answers => do
    match ← machine.step answers with
    | .ok turn =>
      return { machine := turn.machine, calls := turn.calls, reply := .stepped turn.outcome }
    | .error fault => return { machine, calls := [], reply := .refused fault }
  | .reset answers => do
    let left ← machine.reset answers
    return { machine := left.1, calls := left.2, reply := .done }
  | .refresh => do
    let left ← machine.refresh
    return { machine := left.1, calls := left.2, reply := .done }

def run (machine : Machine) : List Use → Option Record
  | [] => return { machine }
  | .operate operation :: rest => do
    let response ← machine.perform operation
    let later ← response.machine.run rest
    return {
      machine := later.machine, calls := response.calls ++ later.calls,
      replies := response.reply :: later.replies, texts := later.texts }
  | .dump now name :: rest => do
    let text ← machine.dump now name
    let later ← machine.run rest
    return { later with texts := text :: later.texts }

def session (dialect : Dialect) (answers : Answers) (uses : List Use) : Option Record := do
  let built ← boot dialect answers
  let later ← built.1.run uses
  return { later with calls := built.2 ++ later.calls }

end Machine

/-- What of the uses a machine takes notice of. -/
def Use.operation? : Use → Option Operation
  | operate operation => some operation
  | dump _ _ => none

def operations (uses : List Use) : List Operation := uses.filterMap Use.operation?

/-- The texts that dumps between other operations show. -/
def dumps (machine : Chip8.Machine) : List Use → List (List Char)
  | [] => []
  | .operate operation :: rest => dumps (machine.perform operation).machine rest
  | .dump now name :: rest => (machine.snapshot now name).text :: dumps machine rest

/-- What came of a session, with its numbers made plain. -/
def Record.of (history : History) (texts : List (List Char)) : Record where
  machine := .of history.machine
  calls := asked history.events
  replies := history.replies
  texts := texts

namespace Machine

variable (machine : Chip8.Machine)

theorem perform_of (operation : Operation) : (of machine).perform operation = some {
    machine := of (machine.perform operation).machine
    calls := asked (machine.perform operation).events
    reply := (machine.perform operation).reply } := by
  cases operation with
  | step answers =>
    simp only [perform, step_of, Option.bind_eq_bind, Option.bind_some]
    cases taken : machine.step answers with
    | error fault =>
      rw [Chip8.Machine.perform_error taken]
      rfl
    | ok turn =>
      rw [Chip8.Machine.perform_ok taken]
      rfl
  | reset answers =>
    simp only [perform, reset_of, Option.bind_eq_bind, Option.bind_some]
    rfl
  | refresh =>
    simp only [perform, refresh_of, Option.bind_eq_bind, Option.bind_some]
    rfl

theorem run_of (uses : List Use) :
    (of machine).run uses = some (.of (machine.run (operations uses)) (dumps machine uses)) := by
  induction uses generalizing machine with
  | nil => rfl
  | cons use rest ih =>
    cases use with
    | operate operation =>
      simp only [run, perform_of, ih, Option.bind_eq_bind, Option.bind_some, Record.of, operations,
        List.filterMap_cons, Use.operation?, Chip8.Machine.run, asked_append]
      rfl
    | dump now name =>
      simp only [run, dump_of, ih, Option.bind_eq_bind, Option.bind_some]
      rfl

theorem session_of (dialect : Dialect) (answers : Answers) (uses : List Use) :
    session dialect answers uses = some (.of
      (Chip8.Machine.session dialect answers (operations uses))
      (dumps (.fresh dialect answers) uses)) := by
  simp only [session, boot_of, run_of, Option.bind_eq_bind, Option.bind_some, Record.of,
    ← asked_append]
  rfl

end Machine

/-- Nothing among the events asks the host for what it cannot rely on. -/
def Respects (events : List Event) : Prop := ∀ call ∈ asked events, call.Respectful

theorem respectful_of_asks {machine : Chip8.Machine} {instruction : Instruction}
    {call : Chip8.Call} (asks : machine.Asks instruction call) : (Call.of call).Respectful := by
  cases call with
  | setFrequency hertz =>
    cases instruction with
    | setFrequency =>
      obtain rfl : hertz = 10 * (machine.registers.get 0).toNat := asks
      have := (machine.registers.get 0).toNat_lt
      exact ⟨Nat.mul_mod_right 10 _, by omega⟩
    | _ => cases asks
  | resized resolution => cases resolution <;> [exact .inl rfl; exact .inr rfl]
  | askKey key =>
    show UInt8.ofNat key.val < 16
    rw [UInt8.lt_iff_toNat_lt, byte_of_nibble]
    exact key.isLt
  | takeWords | beginTone | endTone => trivial
  -- No instruction but a soft reset loads a program, and none draws.
  | loadProgram | draw => cases instruction <;> cases asks

theorem respects_of_calls {events : List Event}
    (each : ∀ call ∈ calls events, (Call.of call).Respectful) : Respects events := by
  intro _ member
  obtain ⟨call, named, rfl⟩ := List.mem_map.mp member
  exact each call named

theorem respects_append {early late : List Event} (first : Respects early)
    (second : Respects late) : Respects (early ++ late) := by
  intro call member
  rw [asked_append, List.mem_append] at member
  exact member.elim (first call) (second call)

theorem loading_respects (rom : Rom) : Respects (Chip8.Machine.loading rom) := by
  apply respects_of_calls
  rw [Chip8.Machine.loading_calls]
  intro call member
  cases List.mem_singleton.mp member
  exact rfl

theorem reset_respects (answers : Answers) (machine : Chip8.Machine) :
    Respects (machine.reset answers).2 := by
  apply respects_of_calls
  rw [Chip8.Machine.reset_calls]
  intro call member
  simp only [List.mem_cons, List.mem_append, List.not_mem_nil, or_false] at member
  rcases member with rfl | (silence | shrink) | rfl
  · trivial
  · split at silence
    · cases silence
    · cases List.mem_singleton.mp silence
      trivial
  · split at shrink
    · cases shrink
    · cases List.mem_singleton.mp shrink
      exact .inl rfl
  · exact rfl

theorem refresh_respects (machine : Chip8.Machine) : Respects machine.refresh.2 := by
  apply respects_of_calls
  rw [Chip8.Machine.refresh_calls]
  intro call member
  split at member
  · cases List.mem_singleton.mp member
    show machine.plane.visible.size = 2048 ∨ machine.plane.visible.size = 8192
    rw [Plane.visible_size]
    rcases Display.size_cases machine.plane with ⟨width, height⟩ | ⟨width, height⟩
    · exact .inl (by rw [width, height])
    · exact .inr (by rw [width, height])
  · cases member

theorem respects_follows : Chip8.Machine.Follows fun _ events _ => Respects events where
  idle _ _ member := by cases member
  chain := respects_append
  advanced _ _ _ member := by cases member
  executed answers machine instruction hard := respects_of_calls fun call member =>
    respectful_of_asks (Chip8.Machine.execute_asks answers machine hard call member)
  ticked now machine := by
    apply respects_of_calls
    rw [Chip8.Machine.tick_calls]
    intro call member
    split at member
    · cases List.mem_singleton.mp member
      trivial
    · cases member
  restarted := reset_respects
  refreshed := refresh_respects

theorem session_respects (dialect : Dialect) (answers : Answers) (operations : List Operation) :
    Respects (Chip8.Machine.session dialect answers operations).events := by
  have built : Respects (Chip8.Machine.boot dialect answers).2 := by
    intro call member
    rcases List.mem_cons.mp member with rfl | member
    · trivial
    · exact loading_respects answers.rom call member
  exact respects_append built (respects_follows.run _ operations)

end Chip8.Checked
