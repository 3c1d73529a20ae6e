import Odbcpp.Connection.Draining

/-!
# What the reading loop has counted

The checks of the loop touch the locals they own and no others, so that the retained
messages are those of the accepted frames, and every counter is a sum over them.
-/

namespace Odbcpp.Connection

open Foundation Database Postgres

variable {limits : ResultLimits} {kind : ResponseKind} {expected frame : Bytes}
  {progress after : Progress} {message : Message} {frames : List Bytes}

/-! ## The checks -/

theorem checkFrame_keeps {tag : Tag} (checked : checkFrame kind progress tag = .ok after) :
    after = { progress with
              descriptionPhase := after.descriptionPhase
              descriptionShape := after.descriptionShape } := by
  unfold checkFrame checkDescriptionFrame checkExecutionFrame at checked
  split at checked <;> split at checked <;> (try split at checked) <;> cases checked <;> rfl

theorem checkExpectedCompletion_keeps
    (checked : checkExpectedCompletion expected progress message = .ok after) :
    after = { progress with sawExpectedCompletion := after.sawExpectedCompletion } := by
  unfold checkExpectedCompletion at checked
  split at checked
  · cases checked
    rfl
  split at checked
  · split at checked <;> cases checked
    rfl
  · split at checked <;> cases checked
    rfl

theorem countFrame_keeps (counted : countFrame limits progress message = .ok (some after)) :
    after = { progress with
              rows := after.rows
              cells := after.cells
              results := after.results
              metadataEntries := after.metadataEntries
              metadataNameBytes := after.metadataNameBytes } := by
  unfold countFrame at counted
  split at counted
  · obtain ⟨columns, -, counted⟩ := bind_eq_ok.mp counted
    split at counted <;> cases counted
    rfl
  · obtain ⟨columns, -, counted⟩ := bind_eq_ok.mp counted
    split at counted
    · cases counted
    obtain ⟨names, -, counted⟩ := bind_eq_ok.mp counted
    split at counted <;> cases counted
    rfl
  · obtain ⟨columns, -, counted⟩ := bind_eq_ok.mp counted
    split at counted <;> cases counted
    rfl
  · split at counted <;> cases counted
    rfl
  · split at counted <;> cases counted
    rfl
  · split at counted <;> cases counted
    rfl
  · cases counted
    rfl

theorem Progress.Retains.messages (retains : progress.Retains limits kind expected frame after) :
    ∃ message, parseMessage frame = .ok message ∧
      after.messages = progress.messages ++ [message] ∧
      ∃ checked, checkFrame kind progress message.tag = .ok checked := by
  obtain ⟨message, checked, completed, counted, parsed, -, checks, completes, counts, same⟩ := retains
  refine ⟨message, parsed, ?_, checked, checks⟩
  rw [same, countFrame_keeps counts, checkExpectedCompletion_keeps completes,
    checkFrame_keeps checks]

theorem Retained.parsed (retained : Retained limits kind expected frames progress) :
    List.Forall₂ (fun frame message => parseMessage frame = .ok message) frames
      progress.messages := by
  induction retained with
  | nothing => exact .nil
  | frame earlier retains ih =>
    obtain ⟨message, parsed, appended, -⟩ := retains.messages
    rw [appended]
    exact List.rel_append ih (.cons parsed .nil)

def isExtended (tag : Tag) : Bool :=
  tag = .parseComplete || tag = .bindComplete || tag = .parameterDescription || tag = .noData

theorem not_isExtended_of_simple {tag checked}
    (checks : checkFrame .simpleExecution progress tag = .ok checked) : isExtended tag = false := by
  cases tag <;> first | rfl | cases checks

theorem Retained.simple (retained : Retained limits .simpleExecution expected frames progress) :
    ∀ message ∈ progress.messages, isExtended message.tag = false := by
  induction retained with
  | nothing => simp
  | frame earlier retains ih =>
    obtain ⟨message, -, appended, checked, checks⟩ := retains.messages
    intro other member
    rw [appended] at member
    rcases List.mem_append.mp member with old | new
    · exact ih other old
    · rw [List.mem_singleton.mp new]
      exact not_isExtended_of_simple checks

end Odbcpp.Connection
