/-
  LineBasic.Proofs.Complaint

  What a complaint is raised as: itself, or a fault when a number in it cannot be written. No other
  complaint and no other fault comes of it.
-/
import LineBasic.Complaint

namespace LineBasic.Complaint

variable {c c' : Complaint} {fault : Fault}

theorem raised_of_isWritable (h : c.isWritable = true) : c.raised = .complaint c :=
  if_pos h

theorem raised_of_not_isWritable (h : c.isWritable = false) : c.raised = .fault .unwritable :=
  if_neg (Bool.eq_false_iff.mp h)

theorem raised_noSuchLine {jump : Jump} {line : Int} (h : Text.isWritable line = true) :
    (noSuchLine jump line).raised = .complaint (noSuchLine jump line) :=
  raised_of_isWritable h

theorem raised_eq_complaint_iff : c.raised = .complaint c' ↔ c.isWritable = true ∧ c' = c := by
  cases h : c.isWritable with
  | true => simp [raised_of_isWritable h, eq_comm]
  | false => simp [raised_of_not_isWritable h]

theorem raised_eq_fault_iff :
    c.raised = .fault fault ↔ c.isWritable = false ∧ fault = .unwritable := by
  cases h : c.isWritable with
  | true => simp [raised_of_isWritable h]
  | false => simp [raised_of_not_isWritable h, eq_comm]

end LineBasic.Complaint
