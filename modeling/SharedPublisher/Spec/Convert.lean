import SharedPublisher.Spec.Messages

/-!
# Conversions between the wire forms and the domain types

A request has the same contents on the wire and in the domain.  An instance goes over the wire as
its start announcement; reading one back fails if the id is not of 32 bytes, and an announcement
without a request stands for the empty request.
-/

namespace SharedPublisher

namespace TransactionRequest

/-- The domain form of an entry of a request. -/
def ofProto (r : Proto.TransactionRequest) : TransactionRequest := ⟨r.chainId, r.transaction⟩

/-- The wire form of an entry of a request. -/
def toProto (r : TransactionRequest) : Proto.TransactionRequest := ⟨r.chainId, r.transactions⟩

@[simp] theorem ofProto_toProto (r : TransactionRequest) : ofProto r.toProto = r := rfl

@[simp] theorem toProto_ofProto (r : Proto.TransactionRequest) : (ofProto r).toProto = r := rfl

end TransactionRequest

namespace XtRequest

/-- The domain form of a request. -/
def ofProto (r : Proto.XtRequest) : XtRequest :=
  ⟨r.transactionRequests.map TransactionRequest.ofProto⟩

/-- The wire form of a request. -/
def toProto (r : XtRequest) : Proto.XtRequest := ⟨r.transactions.map TransactionRequest.toProto⟩

@[simp] theorem ofProto_toProto (r : XtRequest) : ofProto r.toProto = r := by
  simp [ofProto, toProto, Function.comp_def]

@[simp] theorem toProto_ofProto (r : Proto.XtRequest) : (ofProto r).toProto = r := by
  simp [ofProto, toProto, Function.comp_def]

/-- The request without entries. -/
def empty : XtRequest := ⟨[]⟩

end XtRequest

namespace Instance

/-- The start announcement of an instance. -/
def toStartInstance (i : Instance) : Proto.StartInstance :=
  ⟨i.id.bytes, i.periodId, i.sequenceNumber, some i.xtRequest.toProto⟩

/-- The instance that a start announcement announces. -/
def ofStartInstance (si : Proto.StartInstance) : Except String Instance :=
  if hlength : si.instanceId.length = 32 then
    .ok { id := ⟨si.instanceId, hlength⟩
          periodId := si.periodId
          sequenceNumber := si.sequenceNumber
          xtRequest := (si.xtRequest.map XtRequest.ofProto).getD .empty }
  else .error "instance_id must be 32 bytes"

/-- An instance is read back from its announcement. -/
theorem ofStartInstance_toStartInstance (i : Instance) :
    ofStartInstance i.toStartInstance = .ok i := by
  have hlength : i.toStartInstance.instanceId.length = 32 := i.id.length_eq
  rw [ofStartInstance, dif_pos hlength]
  simp [toStartInstance]

end Instance

end SharedPublisher
