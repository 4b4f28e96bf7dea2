import Crakoon.CppCluster

/-!
# Error codes in C and in C++

A negative return code is a negated `errno`. `arakoon_strerror` asks for the message of the code as it stands, sign
included, and `arakoon::rc_to_error` looks at the variable `errno` where it is to tell out-of-memory errors from others.
-/

namespace Crakoon

/-- The texts of `arakoon_strerror`. -/
def ArakoonReturnCode.text : ArakoonReturnCode → String
  | .success => "Success"
  | .noMagic => "No magic"
  | .tooManyDeadNodes => "Too many dead nodes"
  | .noHello => "No hello"
  | .notMaster => "Not master"
  | .notFound => "Not found"
  | .wrongCluster => "Wrong cluster"
  | .assertionFailed => "Assertion failed"
  | .readOnly => "Read only"
  | .nurseryRangeError => "Wrong range in nursery"
  | .unknownFailure => "Unknown failure"
  | .clientNetworkError => "Network error in client"
  | .clientUnknownNode => "Unknown node"
  | .clientMasterNotFound => "Unable to determine master"
  | .clientNotConnected => "Client not connected"
  | .clientTimeout => "Client timeout"
  | .clientNurseryInvalidRouting => "Client unable to parse nursery routing table"
  | .clientNurseryInvalidConfig => "Client contains invalid nursery routing table"

/-- `arakoon_strerror`; `strerror` is that of the system. -/
def arakoonStrerror (strerror : Int → String) (n : ArakoonRc) : String :=
  if n < 0 then strerror n
  else (((ArakoonReturnCode.success :: switchCodes).find? fun code => code.rc = n).map
    ArakoonReturnCode.text).getD "Unknown return code"

/-- Both functions know every code of the library. -/
theorem translate_code (strerror : Int → String) (errno : Nat) (buffer : Data) {code : ArakoonReturnCode}
    (hcode : code ≠ .success) : arakoonStrerror strerror code.rc = code.text ∧
      rcToError errno code.rc buffer = .threw (.arakoonError code buffer) := by
  cases code with
  | success => exact absurd rfl hcode
  | _ => exact ⟨rfl, rfl⟩

section Negative

variable {rc : ArakoonRc} (hrc : rc < 0)
include hrc

end Negative

end Crakoon
