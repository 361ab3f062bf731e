import Cinegraph.Library.Dict
import Cinegraph.MediaActions.Command

/-! The in-memory approvals: one for each idempotency key, saved under the status they were read in. -/

namespace Cinegraph.MediaActions

open Library MediaActionErrorMessages

structure InMemoryApprovalRepository where
  items : Dict UUID ApprovalRequest
  approvalIdByIdempotencyKey : Dict String UUID

namespace InMemoryApprovalRepository

def empty : InMemoryApprovalRepository := ⟨.empty, .empty⟩

def add (self : InMemoryApprovalRepository) (approval : ApprovalRequest) :
    Except Raised InMemoryApprovalRepository := do
  reject (self.items.get? approval.approvalId ≠ none) APPROVAL_TRANSITION_INVALID
  reject (self.approvalIdByIdempotencyKey.get? approval.idempotencyKey ≠ none) IDEMPOTENCY_KEY_REUSED
  return {
    items := self.items.set approval.approvalId approval
    approvalIdByIdempotencyKey :=
      self.approvalIdByIdempotencyKey.set approval.idempotencyKey approval.approvalId }

def get (self : InMemoryApprovalRepository) (approvalId : UUID) : Option ApprovalRequest :=
  self.items.get? approvalId

def findByIdempotencyKey (self : InMemoryApprovalRepository) (key : String) : Option ApprovalRequest :=
  (self.approvalIdByIdempotencyKey.get? key).bind self.items.get?

def save (self : InMemoryApprovalRepository) (approval : ApprovalRequest)
    (expectedStatus : ApprovalStatus) : Except Raised InMemoryApprovalRepository := do
  reject ((self.items.get? approval.approvalId).map (·.status) ≠ some expectedStatus)
    APPROVAL_TRANSITION_INVALID
  return { self with items := self.items.set approval.approvalId approval }

variable {self next : InMemoryApprovalRepository} {approval : ApprovalRequest}

theorem add_ok (h : self.add approval = .ok next) :
    self.items.get? approval.approvalId = none ∧
      next.items = self.items.set approval.approvalId approval := by
  simp only [add, reject_bind_eq_ok, ne_eq, not_not] at h
  obtain ⟨absent, _, added⟩ := h
  cases added
  exact ⟨absent, rfl⟩

theorem save_ok {expectedStatus : ApprovalStatus} (h : self.save approval expectedStatus = .ok next) :
    (∃ current, self.items.get? approval.approvalId = some current ∧
      current.status = expectedStatus) ∧
      next.items = self.items.set approval.approvalId approval := by
  simp only [save, reject_bind_eq_ok, ne_eq, not_not, Option.map_eq_some_iff] at h
  obtain ⟨current, saved⟩ := h
  cases saved
  exact ⟨current, rfl⟩

end InMemoryApprovalRepository

end Cinegraph.MediaActions
