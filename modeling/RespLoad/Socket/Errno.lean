import RespLoad.Bytes

/-!
# Failures of system calls

The error numbers that a socket call can report and the ways in which a name lookup can fail, with the
texts the system has for them. The common ones have names; any other is its number and its text.
-/
namespace RespLoad

/-- A number that is none of those with names, and the system's text for it. -/
structure Unnamed (named : List Int) where
  number : Int
  text : Bytes
  unnamed : number ∉ named
  deriving Repr, DecidableEq

/-- Error numbers of socket calls, those with names as Linux numbers them. -/
inductive Errno where
  | interrupted
  | wouldBlock
  | brokenPipe
  | connectionRefused
  | connectionReset
  | timedOut
  | networkUnreachable
  | hostUnreachable
  | tooManyFiles
  | accessDenied
  | invalidArgument
  | inProgress
  | noBufferSpace
  | noProtocolOption
  | other (error : Unnamed [4, 11, 13, 22, 24, 32, 92, 101, 104, 105, 110, 111, 113, 115])
  deriving Repr, DecidableEq

/-- The system's text for an error number. -/
def Errno.text : Errno → Bytes
  | .interrupted => utf8 "Interrupted system call"
  | .wouldBlock => utf8 "Resource temporarily unavailable"
  | .brokenPipe => utf8 "Broken pipe"
  | .connectionRefused => utf8 "Connection refused"
  | .connectionReset => utf8 "Connection reset by peer"
  | .timedOut => utf8 "Connection timed out"
  | .networkUnreachable => utf8 "Network is unreachable"
  | .hostUnreachable => utf8 "No route to host"
  | .tooManyFiles => utf8 "Too many open files"
  | .accessDenied => utf8 "Permission denied"
  | .invalidArgument => utf8 "Invalid argument"
  | .inProgress => utf8 "Operation now in progress"
  | .noBufferSpace => utf8 "No buffer space available"
  | .noProtocolOption => utf8 "Protocol not available"
  | .other error => error.text

/-- A system call that failed. -/
structure CallFailure where
  call : Bytes
  errno : Errno
  deriving Repr, DecidableEq

def CallFailure.message (failure : CallFailure) : Bytes :=
  failure.call ++ utf8 " failed: " ++ failure.errno.text

/-- The ways in which a name lookup fails. -/
inductive LookupFailure where
  | unknownName
  | tryAgain
  | permanent
  | unsupportedFamily
  | other (failure : Unnamed [-2, -3, -4, -6])
  deriving Repr, DecidableEq

def LookupFailure.text : LookupFailure → Bytes
  | .unknownName => utf8 "Name or service not known"
  | .tryAgain => utf8 "Temporary failure in name resolution"
  | .permanent => utf8 "Non-recoverable failure in name resolution"
  | .unsupportedFamily => utf8 "ai_family not supported"
  | .other failure => failure.text

end RespLoad
