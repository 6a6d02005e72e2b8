import RailSpec.Text.Quoted

/-! What a system says when it cannot do something with a file or directory. -/

namespace RailSpec.Disk

/-- Why a system refuses a step. -/
inductive Errno where
  | missing
  | inputOutput
  | denied
  | busy
  | exists
  | notDirectory
  | isDirectory
  | noSpace
  | readOnly
  | nameTooLong
  deriving DecidableEq, Repr

def Errno.number : Errno → Nat
  | .missing => 2
  | .inputOutput => 5
  | .denied => 13
  | .busy => 16
  | .exists => 17
  | .notDirectory => 20
  | .isDirectory => 21
  | .noSpace => 28
  | .readOnly => 30
  | .nameTooLong => 36

def Errno.text : Errno → String
  | .missing => "No such file or directory"
  | .inputOutput => "Input/output error"
  | .denied => "Permission denied"
  | .busy => "Device or resource busy"
  | .exists => "File exists"
  | .notDirectory => "Not a directory"
  | .isDirectory => "Is a directory"
  | .noSpace => "No space left on device"
  | .readOnly => "Read-only file system"
  | .nameTooLong => "File name too long"

/-- What went wrong. Only a path with a null character never gets as far as the system. -/
inductive Fault where
  | step (errno : Errno) (path : String)
  | filling (errno : Errno)
  | renaming (errno : Errno) (source target : String)
  | present (path : String)
  | noTemporaryName
  | nullByte
  deriving DecidableEq, Repr

def Errno.message (errno : Errno) : String :=
  "[Errno " ++ toString errno.number ++ "] " ++ errno.text

def Fault.message : Fault → String
  | .step errno path => errno.message ++ ": " ++ Text.shown path
  | .filling errno => errno.message
  | .renaming errno source target =>
    errno.message ++ ": " ++ Text.shown source ++ " -> " ++ Text.shown target
  | .present path => "File already exists: " ++ path
  | .noTemporaryName => "[Errno 17] No usable temporary file name found"
  | .nullByte => "embedded null byte"

/-- Whether the fault is that something exists where it must not. -/
def Fault.isPresence : Fault → Bool
  | .step .exists _ | .filling .exists | .renaming .exists _ _ => true
  | .present _ | .noTemporaryName => true
  | _ => false

end RailSpec.Disk
