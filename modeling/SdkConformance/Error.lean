import SdkConformance.ClassFile.Constant
import SdkConformance.ClassFile.Descriptor
import SdkConformance.Text.ModifiedUtf8

/-!
# What can go wrong

Every failure of the library is a value of `Error`, which says what happened and not how it is
worded. The wording is in `Malformation.message` and `Error.message`.
-/

namespace SdkConformance

/-! ## 1. Damaged data -/

/-- What is wrong with data that was read. -/
inductive Malformation where
  /-- A text constant cannot be decoded. -/
  | undecodable (fault : ModifiedUtf8.Fault)
  /-- A text is no descriptor. -/
  | noDescriptor (fault : Descriptor.Fault)
  /-- The data does not start like a class file. -/
  | magic (found : UInt32)
  /-- The number of slots of a constant pool does not count slot zero. -/
  | emptyPool
  /-- An eight-octet constant starts in the last slot. -/
  | wideConstant (slot count : Nat)
  /-- No constant has this tag. -/
  | constantTag (tag : UInt8) (slot : Nat)
  /-- A slot is used as a text and is none. -/
  | notText (index : UInt16) (found : Constant)
  /-- A slot is used as a class and is none. -/
  | notClass (index : UInt16) (found : Constant)
  /-- There is no slot of this number. -/
  | noConstant (index : UInt16)
  /-- The descriptor of a method cannot be read. -/
  | methodDescriptor (descriptor className methodName : String) (fault : Descriptor.Fault)
  /-- A line of a properties text has no separator. -/
  | noSeparator (line : Nat) (text : String)
  /-- The octets of an archive entry are damaged. -/
  | entryDamaged (name : String)
  /-- An archive entry does not have the size that is recorded for it. -/
  | entrySize (name : String) (size : Nat)
  deriving DecidableEq, Repr

/-! ## 2. Files and containers -/

/-- Why the contents of a file cannot be had. -/
inductive FileFault where
  | notFound
  | notDirectory
  | isDirectory
  | noDevice
  | nameTooLong
  | notUtf8
  /-- A reason given in words. -/
  | other (text : String)
  deriving DecidableEq, Repr

/-- The text of a file fault. -/
def FileFault.message : FileFault → String
  | .notFound => "No such file or directory (os error 2)"
  | .notDirectory => "Not a directory (os error 20)"
  | .isDirectory => "Is a directory (os error 21)"
  | .noDevice => "No such device (os error 19)"
  | .nameTooLong => "File name too long (os error 36)"
  | .notUtf8 => "stream did not contain valid UTF-8"
  | .other text => text

/-- Why a zip container, or an entry of one, cannot be opened. -/
inductive ZipFault where
  | invalid
  | unsupported
  | cutOff
  deriving DecidableEq, Repr

/-- The text of a zip fault. -/
def ZipFault.message : ZipFault → String
  | .invalid => "invalid Zip archive"
  | .unsupported => "unsupported Zip archive"
  | .cutOff => "i/o error"

/-! ## 3. Errors -/

/-- Why an operation of the library failed. -/
inductive Error where
  /-- The data is damaged. -/
  | malformed (m : Malformation)
  /-- The data ends too early. -/
  | outOfBounds
  /-- There is no data. -/
  | empty
  /-- The zip container cannot be used. -/
  | zip (fault : ZipFault)
  /-- A file cannot be read. -/
  | file (fault : FileFault)
  /-- A version key, as handed over, is no number. -/
  | invalidVersionNumber (key : String)
  /-- A version was given twice. -/
  | duplicateVersion (version : UInt32)
  /-- The archive of a version could not be opened; `cause` is the text of the first failure. -/
  | archiveOpen (version : UInt32) (path cause : String)
  deriving DecidableEq, Repr

/-- The error that a descriptor fault is when the descriptor stands alone. -/
def Descriptor.Fault.toError : Descriptor.Fault → Error
  | .missing => .outOfBounds
  | fault => .malformed (.noDescriptor fault)

/-! ## 4. Wording -/

/-- A descriptor fault as the cause of another one: damage is called by that name. -/
def Descriptor.Fault.asCause : Descriptor.Fault → String
  | .missing => Descriptor.Fault.missing.message
  | fault => "Malformed - " ++ fault.message

/-- What is reported about damaged data. -/
def Malformation.message : Malformation → String
  | .undecodable fault => fault.message
  | .noDescriptor fault => fault.message
  | .magic found => s!"Invalid class file magic - 0x{Digits.hexUpper 8 found.toNat}"
  | .emptyPool => "Constant pool count must be at least 1"
  | .wideConstant slot count => s!"Eight-byte constant at {slot} overflows the pool of {count}"
  | .constantTag tag slot => s!"Invalid constant pool tag {tag} at entry {slot}"
  | .notText index found => s!"Constant {index} is not a Utf8 entry - {found.shown}"
  | .notClass index found => s!"Constant {index} is not a Class entry - {found.shown}"
  | .noConstant index => s!"Constant index {index} out of range"
  | .methodDescriptor descriptor className methodName fault =>
    s!"Invalid descriptor {descriptor} of {className}.{methodName} - {fault.asCause}"
  | .noSeparator line text => s!"Line {line} has no '=' or ':' separator - {text}"
  | .entryDamaged name => s!"Failed to read {name}"
  | .entrySize name size => s!"Entry {name} inflates past {size} bytes"

/-- What is reported about an error. -/
def Error.message : Error → String
  | .malformed m => m.message
  | .outOfBounds => "Out of Bound read would have occurred!"
  | .empty => "Provided input was empty"
  | .zip fault => fault.message
  | .file fault => fault.message
  | .invalidVersionNumber key => s!"Invalid version number - '{key}'"
  | .duplicateVersion version => s!"Version {version} is configured more than once"
  | .archiveOpen version path cause => s!"Failed to open SDK {version} at {path}: {cause}"

/-- What is reported about an error inside another report: damage is called by that name. -/
def Error.asCause : Error → String
  | .malformed m => "Malformed - " ++ m.message
  | e => e.message

end SdkConformance
