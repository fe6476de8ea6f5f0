import Mathlib.Data.List.Basic

/-!
# Error numbers, status codes and application events

The device library reports errors inside the firmware as negative error numbers,
to the client as `prov-status` codes, and to the application as events.
-/

namespace Status

/-- The error numbers that the device library returns. -/
inductive Errno where
  | einval | emsgsize | ebadmsg | eio | enomem | enodev | enoent | ealready
  deriving DecidableEq, Repr

/-- `prov-status` of the wire schema. -/
inductive ProvStatus where
  | ok | invalidProto | invalidArgument | internalError | unauthorized | invalidState | busy
  deriving DecidableEq, Repr

/-- The choice value that the schema gives to a status. -/
def ProvStatus.code : ProvStatus → Nat
  | .ok => 0
  | .invalidProto => 1
  | .invalidArgument => 2
  | .internalError => 3
  | .unauthorized => 4
  | .invalidState => 5
  | .busy => 6

/-- `fail-reason` of the wire schema and `enum pouch_prov_fail_reason`. -/
inductive FailReason where
  | authError | networkNotFound
  deriving DecidableEq, Repr

/-- `enum pouch_prov_event`, with the data that an event carries. -/
inductive Event where
  | started | sessionAuthorized | wifiCredRecv | wifiConnected | wifiFail (reason : FailReason)
  | cloudCredStored | ended
  deriving DecidableEq, Repr

end Status
