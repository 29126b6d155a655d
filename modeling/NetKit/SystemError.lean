/-!
Errors of the operating system, with their numbers and texts.
-/
namespace NetKit

inductive SystemError where
  | notFound
  | busy
  | alreadyExists
  | noDevice
  | notDirectory
  | isDirectory
  | invalid
  | fileTooLarge
  | noSpace
  | nameTooLong
  | messageTooLong
  | noProtocolOption
  | addressInUse
  | addressNotAvailable
  | unreachable
  | refused
  /-- A name with a zero octet, which never reaches the system. -/
  | zeroInName
  /-- A file opened for creating or truncating, but not for writing. -/
  | createWithoutWrite
  /-- A host name for which no address is known. -/
  | unknownHost
deriving DecidableEq, Repr

namespace SystemError

def numbered (text : String) (code : Nat) : String := text ++ " (os error " ++ toString code ++ ")"

def message : SystemError → String
  | .notFound => numbered "No such file or directory" 2
  | .busy => numbered "Device or resource busy" 16
  | .alreadyExists => numbered "File exists" 17
  | .noDevice => numbered "No such device" 19
  | .notDirectory => numbered "Not a directory" 20
  | .isDirectory => numbered "Is a directory" 21
  | .invalid => numbered "Invalid argument" 22
  | .fileTooLarge => numbered "File too large" 27
  | .noSpace => numbered "No space left on device" 28
  | .nameTooLong => numbered "File name too long" 36
  | .messageTooLong => numbered "Message too long" 90
  | .noProtocolOption => numbered "Protocol not available" 92
  | .addressInUse => numbered "Address already in use" 98
  | .addressNotAvailable => numbered "Cannot assign requested address" 99
  | .unreachable => numbered "Network is unreachable" 101
  | .refused => numbered "Connection refused" 111
  | .zeroInName => "file name contained an unexpected NUL byte"
  | .createWithoutWrite => "creating or truncating a file requires write or append access"
  | .unknownHost =>
    "failed to lookup address information: Temporary failure in name resolution"

end SystemError
end NetKit
