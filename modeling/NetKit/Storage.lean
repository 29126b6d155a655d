import NetKit.Handles
import NetKit.SystemError
import NetKit.Text.Utf8

/-!
What devices ask of a system that keeps files. The answers are the system's own affair: a law about
devices that holds for every instance holds whatever the system answers.
-/
namespace NetKit

/-- What becomes of the file when it is opened. -/
inductive Creation where
  /-- The file has to be there. -/
  | existing
  /-- Made if it is not there. -/
  | ifMissing
  /-- Made, and must not be there. -/
  | always
deriving DecidableEq, Repr

/-- How a file is opened. -/
structure Access where
  read : Bool := false
  write : Bool := false
  append : Bool := false
  truncate : Bool := false
  creation : Creation := .existing
deriving DecidableEq, Repr

/-- Descriptors are numbers that the system gives out for open files. -/
abbrev FileDescriptor := Nat

class Storage (σ : Type) where
  openFile : String → Access → σ → Except SystemError FileDescriptor × σ
  /-- A new file in a directory with a name of its own: a beginning, a unique part and an end. -/
  createUnique : (directory start tail : String) → σ →
    Except SystemError (FileDescriptor × String) × σ
  closeFile : FileDescriptor → σ → σ
  openSize : FileDescriptor → σ → Nat
  /-- Sets the offset at which the next transfer begins. -/
  seekTo : FileDescriptor → Nat → σ → Except SystemError Unit × σ
  /-- Some octets at the offset, at most as many as asked for, none at the end. -/
  readSome : FileDescriptor → Nat → σ → Except SystemError Bytes × σ
  writeAll : FileDescriptor → Bytes → σ → Except SystemError Unit × σ
  isPresent : String → σ → Bool
  isFile : String → σ → Bool
  /-- The size of what a path names, zero when it names nothing. -/
  sizeOf : String → σ → Nat
  contents : String → σ → Except SystemError Bytes
  removeFile : String → σ → Except SystemError Unit × σ
  renameFile : (source target : String) → σ → Except SystemError Unit × σ

end NetKit
