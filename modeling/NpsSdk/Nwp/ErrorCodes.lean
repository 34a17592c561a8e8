import Mathlib.Data.Nat.Notation

/-!
# NWP error codes
-/

namespace NpsSdk.Nwp

def NWP_AUTH_NID_SCOPE_VIOLATION : String := "NWP-AUTH-NID-SCOPE-VIOLATION"
def NWP_ACTION_NOT_FOUND : String := "NWP-ACTION-NOT-FOUND"
def NWP_ACTION_PARAMS_INVALID : String := "NWP-ACTION-PARAMS-INVALID"
def NWP_ACTION_IDEMPOTENCY_CONFLICT : String := "NWP-ACTION-IDEMPOTENCY-CONFLICT"
def NWP_TASK_NOT_FOUND : String := "NWP-TASK-NOT-FOUND"
def NWP_TASK_ALREADY_CANCELLED : String := "NWP-TASK-ALREADY-CANCELLED"
def NWP_NODE_UNAVAILABLE : String := "NWP-NODE-UNAVAILABLE"
def NWP_LLM_CONTEXT_NOT_FOUND : String := "NWP-LLM-CONTEXT-NOT-FOUND"
def NWP_LLM_CONTEXT_EXPIRED : String := "NWP-LLM-CONTEXT-EXPIRED"
def NWP_LLM_CONTEXT_VERSION_CONFLICT : String := "NWP-LLM-CONTEXT-VERSION-CONFLICT"
def NWP_LLM_CONTEXT_BINDING_MISMATCH : String := "NWP-LLM-CONTEXT-BINDING-MISMATCH"
def NWP_LLM_CONTEXT_FORBIDDEN : String := "NWP-LLM-CONTEXT-FORBIDDEN"
def NWP_LLM_CONTEXT_LIMIT_EXCEEDED : String := "NWP-LLM-CONTEXT-LIMIT-EXCEEDED"
def NWP_LLM_CONTEXT_OPERATION_UNSUPPORTED : String := "NWP-LLM-CONTEXT-OPERATION-UNSUPPORTED"

/-- The rows of the errors of the context store. -/
def NWP_ERROR_TO_NPS_STATUS : List (String × String) :=
  [ (NWP_ACTION_PARAMS_INVALID, "NPS-CLIENT-UNPROCESSABLE"),
    (NWP_ACTION_IDEMPOTENCY_CONFLICT, "NPS-CLIENT-CONFLICT"),
    (NWP_LLM_CONTEXT_NOT_FOUND, "NPS-CLIENT-NOT-FOUND"),
    (NWP_LLM_CONTEXT_EXPIRED, "NPS-CLIENT-GONE"),
    (NWP_LLM_CONTEXT_VERSION_CONFLICT, "NPS-CLIENT-CONFLICT"),
    (NWP_LLM_CONTEXT_BINDING_MISMATCH, "NPS-CLIENT-CONFLICT"),
    (NWP_LLM_CONTEXT_FORBIDDEN, "NPS-AUTH-FORBIDDEN"),
    (NWP_LLM_CONTEXT_LIMIT_EXCEEDED, "NPS-LIMIT-RESOURCE"),
    (NWP_LLM_CONTEXT_OPERATION_UNSUPPORTED, "NPS-SERVER-UNSUPPORTED") ]

/-- The rows of the statuses of these errors. -/
def HTTP_STATUS_MAP : List (String × ℕ) :=
  [ ("NPS-CLIENT-UNPROCESSABLE", 422), ("NPS-CLIENT-CONFLICT", 409), ("NPS-CLIENT-NOT-FOUND", 404),
    ("NPS-CLIENT-GONE", 410), ("NPS-AUTH-FORBIDDEN", 403), ("NPS-LIMIT-RESOURCE", 429),
    ("NPS-SERVER-UNSUPPORTED", 501), ("NPS-SERVER-INTERNAL", 500) ]

def toHttpStatus (code : String) : ℕ := (HTTP_STATUS_MAP.lookup code).getD 500

end NpsSdk.Nwp
