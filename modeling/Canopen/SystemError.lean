/-!
# Errors of the operating system

The texts of the numbers by which the operating system tells what went wrong.
-/
namespace Canopen.SystemError

def meaning? : Nat → Option String
  | 1 => some "Operation not permitted"
  | 2 => some "No such file or directory"
  | 5 => some "Input/output error"
  | 13 => some "Permission denied"
  | 17 => some "File exists"
  | 20 => some "Not a directory"
  | 21 => some "Is a directory"
  | 22 => some "Invalid argument"
  | 24 => some "Too many open files"
  | 26 => some "Text file busy"
  | 27 => some "File too large"
  | 28 => some "No space left on device"
  | 30 => some "Read-only file system"
  | 32 => some "Broken pipe"
  | 36 => some "File name too long"
  | 40 => some "Too many levels of symbolic links"
  | 97 => some "Address family not supported by protocol"
  | 99 => some "Cannot assign requested address"
  | 101 => some "Network is unreachable"
  | 104 => some "Connection reset by peer"
  | 110 => some "Connection timed out"
  | 111 => some "Connection refused"
  | 113 => some "No route to host"
  | _ => none

def text (number : Nat) : String :=
  (meaning? number).getD s!"Unknown error {number}" ++ s!" (os error {number})"

end Canopen.SystemError
