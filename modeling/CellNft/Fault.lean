/-
CellNft.Fault — everything that can go wrong, by cause.

* `Fault` has one constructor for each cause.
* `Fault.kind` groups the causes into families. The name of a family is part of texts the program
  prints, and the families form the hierarchy `Fault.Kind.isA` that decides what is tried again.
* `Fault.message` is the wording. Nothing else in the library words a failure.
-/
import CellNft.Logging.Pattern
import CellNft.Number.Integer
import CellNft.Value.Display

namespace CellNft

/-- The wording for a part of a date or a time that is out of range. -/
def Calendar.Misfit.message : Calendar.Misfit → String
  | year n => "year " ++ toString n ++ " is out of range"
  | month => "month must be in 1..12"
  | day => "day is out of range for month"
  | hour => "hour must be in 0..23"
  | minute => "minute must be in 0..59"
  | second => "second must be in 0..59"
  | offset minutes =>
    "offset must be a timedelta strictly between -timedelta(hours=24) and timedelta(hours=24), not "
      ++ spanText minutes ++ "."

/-- The wording for a pattern of a file name that is flawed. -/
def Logging.Pattern.Flaw.message : Logging.Pattern.Flaw → String
  | loneOpen => "Single '\x7b' encountered in format string"
  | loneClose => "Single '\x7d' encountered in format string"
  | openInField => "unexpected '\x7b' in field name"
  | noConversion => "end of string while looking for conversion specifier"
  | behindConversion => "expected ':' after conversion specifier"
  | openFormat => "unmatched '\x7b' in format spec"
  | openField => "expected '\x7d' before end of string"
  | positional => "Format string contains positional fields"
  | unknownField key => Scalar.quoted (.str key)

/-- The families of failures. -/
inductive Fault.Kind where
  | any | value | encoding | type | method | assertion | runtime | overflow | validation
  | lookup | key | index
  | os | connection | isDirectory | notDirectory | fileExists
  | malformedJson | malformedYaml
  | httpConnection | httpResponse
  | cota | config | rpc | notCommitted | stage
deriving DecidableEq, Inhabited

/-- Why something failed. -/
inductive Fault where
  -- texts and numbers
  | notHex (position : Nat)
  | notInteger (base : Nat) (literal : Scalar)
  | tooManyDigits (count : Nat)
  | unwritable
  | notDecimal (text : Text)
  | noCharacter (code : Nat)
  | notFinite (infinite : Bool)
  | notWhole
  | byteRange
  | noByte
  | negativeCount
  | countTooLarge
  | tooBig
  | negative
  | beyondDouble
  | pauseTooLong (floating : Bool)
  | pauseNegative
  | pauseIndefinite
  | u32Range (n : Scalar)
  | pairLength (index length : Nat)
  | misfit (m : Calendar.Misfit)
  -- values of another shape than needed
  | wrongType
  | noSuchMethod
  | missingKey (key : Scalar)
  | outOfRange
  | violated
  -- addresses
  | addressFormat (address : Text)
  | addressPayload (address : Text)
  | addressHashType (address : Text)
  | addressFormatType (format : Nat)
  | shortIndex (index : Value)
  -- keys and transactions
  | keyLength (length : Nat)
  | keyTooSmall (key : Nat)
  | keyTooLarge (key greatest : Nat)
  | noWitnesses
  | keyMismatch (own : String) (lock : Value)
  -- files and settings
  | fileMissing (path : Text)
  | directory
  | notDirectory
  | fileInTheWay
  | nameTooLong
  | zeroInName
  | notEncodable
  | malformedYaml
  | levelUnknown (name : Text)
  | levelNegative (level : Int)
  | pattern (flaw : Logging.Pattern.Flaw)
  | spanUnreadable (text : Text)
  | spanAmount (text : String)
  | spanUnit (text : String)
  | spanTooLong (days : Int)
  | chainUnknown (chain network : Value)
  | settingMissing (key : Scalar)
  | accountUnknown (name : Value)
  | accountWithoutAddress (name : Scalar)
  | accountKeyFormat (name : Scalar)
  | accountWithoutKey (name : Value)
  -- requests and replies
  | unreachable (text : Text)
  | httpStatus (status : Int)
  | malformedJson
  | rpc (method code message data : Value)
  | blockUnknown (number : Value)
  | genesisDepMissing
  | rejected (hash reason : Value)
  | notCommitted (hash status : Value)
  -- the flow of a transaction
  | cellMissing (args : Value)
  | capacityTooSmall (capacity : Value)
  | collectionUnknown (cotaId : Value)
  | depNotConfigured
  | hashFormat (hash : Value)
  | stage (name : Value) (cause : Fault)
  -- a failure of a given family and wording
  | raised (kind : Fault.Kind) (text : Text)
deriving Inhabited

namespace Fault

namespace Kind

/-- The name under which messages mention the family. -/
def name : Kind → String
  | any => "Exception"
  | value => "ValueError"
  | encoding => "UnicodeEncodeError"
  | type => "TypeError"
  | method => "AttributeError"
  | assertion => "AssertionError"
  | runtime => "RuntimeError"
  | overflow => "OverflowError"
  | validation => "ValidationError"
  | lookup => "LookupError"
  | key => "KeyError"
  | index => "IndexError"
  | os => "OSError"
  | connection => "ConnectionError"
  | isDirectory => "IsADirectoryError"
  | notDirectory => "NotADirectoryError"
  | fileExists => "FileExistsError"
  | malformedJson => "JSONDecodeError"
  | malformedYaml => "YAMLError"
  | httpConnection => "ClientConnectionError"
  | httpResponse => "ClientResponseError"
  | cota => "CotaError"
  | config => "ConfigError"
  | rpc => "RpcError"
  | notCommitted => "TransactionNotCommitted"
  | stage => "StageError"

/-- All families. -/
def all : List Kind := [
  any, value, encoding, type, method, assertion, runtime, overflow, validation, lookup, key, index,
  os, connection, isDirectory, notDirectory, fileExists, malformedJson, malformedYaml,
  httpConnection, httpResponse, cota, config, rpc, notCommitted, stage]

/-- The family of a name. -/
def ofName? (name : Text) : Option Kind := all.find? fun k => Text.ofString k.name = name

/-- The family a family belongs to directly; `any` holds all. -/
def parent : Kind → Kind
  | encoding | malformedJson => value
  | key | index => lookup
  | connection | isDirectory | notDirectory | fileExists => os
  | config | rpc | notCommitted | stage => cota
  | _ => any

/-- Whether a failure of family `k` also counts as one of family `of`. -/
def isA (k of : Kind) : Bool := k = of || k.parent = of || of = any

end Kind

/-- The family of a failure. -/
def kind : Fault → Kind
  | notHex _ | notInteger .. | tooManyDigits _ | unwritable | notDecimal _ | notWhole | byteRange
  | noByte | negativeCount | u32Range _ | pairLength .. | misfit _ | pauseNegative
  | pauseIndefinite => .value
  | noCharacter code => if code < 0x80000000 then .value else .overflow
  | notFinite infinite => if infinite then .overflow else .value
  | countTooLarge | tooBig | negative | beyondDouble | pauseTooLong _ => .overflow
  | wrongType => .type
  | noSuchMethod => .method
  | missingKey _ => .key
  | outOfRange => .index
  | violated => .assertion
  | addressFormat _ | addressPayload _ | addressHashType _ | addressFormatType _ | shortIndex _ =>
    .value
  | keyLength _ | keyTooSmall _ | keyTooLarge .. => .validation
  | noWitnesses => .value
  | keyMismatch .. => .cota
  | fileMissing _ => .config
  | directory => .isDirectory
  | notDirectory => .notDirectory
  | fileInTheWay => .fileExists
  | nameTooLong => .os
  | zeroInName => .value
  | notEncodable => .encoding
  | malformedYaml => .malformedYaml
  | levelUnknown _ | levelNegative _ | spanUnreadable _ | spanAmount _ | spanUnit _ => .value
  | pattern (.unknownField _) => .key
  | pattern _ => .value
  | spanTooLong _ => .overflow
  | chainUnknown .. | settingMissing _ | accountUnknown _ | accountWithoutAddress _
  | accountKeyFormat _ | accountWithoutKey _ => .config
  | unreachable _ => .httpConnection
  | httpStatus _ => .httpResponse
  | malformedJson => .malformedJson
  | rpc .. => .rpc
  | blockUnknown _ | genesisDepMissing | rejected .. => .cota
  | notCommitted .. => .notCommitted
  | cellMissing _ | capacityTooSmall _ | collectionUnknown _ | depNotConfigured | hashFormat _ =>
    .cota
  | stage .. => .stage
  | raised kind _ => kind

/-- At most two hundred characters of a text. -/
private def clipped (s : String) : String := String.ofList (s.toList.take 200)

/-- The wording of a failure. -/
def message : Fault → Text
  | notHex position =>
    "non-hexadecimal number found in fromhex() arg at position " ++ toString position
  | notInteger base literal =>
    "invalid literal for int() with base " ++ toString base ++ ": " ++ clipped literal.quoted
  | tooManyDigits count =>
    "Exceeds the limit (" ++ toString Integer.mostDigits
      ++ " digits) for integer string conversion: value has " ++ toString count
      ++ " digits; use sys.set_int_max_str_digits() to increase the limit"
  | unwritable =>
    "Exceeds the limit (" ++ toString Integer.mostDigits
      ++ " digits) for integer string conversion; use sys.set_int_max_str_digits() to increase the "
      ++ "limit"
  | notDecimal text => "could not convert string to float: " ++ Scalar.quoted (.str text)
  | noCharacter code =>
    if code < 0x80000000 then "chr() arg not in range(0x110000)"
    else "Python int too large to convert to C int"
  | notFinite infinite =>
    if infinite then "cannot convert float infinity to integer"
    else "cannot convert float NaN to integer"
  | notWhole => "Unknown format code 'x' for object of type 'float'"
  | byteRange => "bytes must be in range(0, 256)"
  | noByte => "byte must be in range(0, 256)"
  | negativeCount => "negative count"
  | countTooLarge => "cannot fit 'int' into an index-sized integer"
  | tooBig => "int too big to convert"
  | negative => "can't convert negative int to unsigned"
  | beyondDouble => "int too large to convert to float"
  | pauseTooLong floating =>
    if floating then "timestamp out of range for platform time_t"
    else "timestamp too large to convert to C _PyTime_t"
  | pauseNegative => "sleep length must be non-negative"
  | pauseIndefinite => "Invalid value NaN (not a number)"
  | u32Range n => "U32 Overflow[" ++ n.display ++ "]"
  | pairLength index length =>
    "dictionary update sequence element #" ++ toString index ++ " has length " ++ toString length
      ++ "; 2 is required"
  | misfit m => m.message
  | wrongType => "value of a wrong type"
  | noSuchMethod => "value without such a method"
  | missingKey key => key.quoted
  | outOfRange => "index out of range"
  | violated => ""
  | addressFormat address => "Address Format Error[" ++ address ++ "]"
  | addressPayload address => "Address Payload Error[" ++ address ++ "]"
  | addressHashType address => "Address Hash Type Error[" ++ address ++ "]"
  | addressFormatType format => "Address Format Type Error[" ++ toString format ++ "]"
  | shortIndex index => "Short Address Code Hash Index Error[" ++ index.display ++ "]"
  | keyLength length =>
    "Unexpected private key length: Expected 32, but got " ++ toString length ++ " bytes"
  | keyTooSmall key => "Value " ++ toString key ++ " is not greater than or equal to 1"
  | keyTooLarge key greatest =>
    "Value " ++ toString key ++ " is not less than or equal to " ++ toString greatest
  | noWitnesses => "Transaction Witnesses Empty"
  | keyMismatch own lock =>
    "Private Key Not Match Lock[" ++ own ++ " != " ++ lock.display ++ "]"
  | fileMissing path => "Config Not Found[" ++ path ++ "]"
  | directory => "Is a directory"
  | notDirectory => "Not a directory"
  | fileInTheWay => "File exists"
  | nameTooLong => "File name too long"
  | zeroInName => "embedded null byte"
  | notEncodable => "surrogates not allowed"
  | malformedYaml => "malformed document"
  | levelUnknown name => "Level '" ++ name ++ "' does not exist"
  | levelNegative level =>
    "Invalid level value, it should be a positive integer, not: " ++ toString level
  | pattern flaw => flaw.message
  | spanUnreadable text => "Cannot parse retention from: '" ++ text ++ "'"
  | spanAmount text => "Invalid float value while parsing duration: '" ++ text ++ "'"
  | spanUnit text => "Invalid unit value while parsing duration: '" ++ text ++ "'"
  | spanTooLong days =>
    if -0x80000000 ≤ days && days < 0x80000000 then
      "days=" ++ toString days ++ "; must have magnitude <= 999999999"
    else "Python int too large to convert to C int"
  | chainUnknown chain network =>
    "BlockChain Not Support[" ++ chain.display ++ ":" ++ network.display ++ "]"
  | settingMissing key => "Network Config Missing[" ++ key.display ++ "]"
  | accountUnknown name => "Account Not Found[" ++ name.display ++ "]"
  | accountWithoutAddress name => "Account Address Missing[" ++ name.display ++ "]"
  | accountKeyFormat name => "Account Private Key Format Error[" ++ name.display ++ "]"
  | accountWithoutKey name => "Account Private Key Missing[" ++ name.display ++ "]"
  | unreachable text => text
  | httpStatus status => toString status
  | malformedJson => "malformed document"
  | rpc method code message _ =>
    "RPC " ++ method.display ++ " Failed[" ++ code.display ++ ":" ++ message.display ++ "]"
  | blockUnknown number => "Block Not Found[" ++ number.display ++ "]"
  | genesisDepMissing => "Genesis Dep Group Transaction Not Found"
  | rejected hash reason =>
    "Transaction Rejected[" ++ hash.display ++ "][" ++ reason.display ++ "]"
  | notCommitted hash status =>
    "Transaction Not Committed[" ++ hash.display ++ "][" ++ status.display ++ "]"
  | cellMissing args => "Cota Cell Not Found[" ++ args.display ++ "]"
  | capacityTooSmall capacity => "Cota Cell Capacity Not Enough[" ++ capacity.display ++ "]"
  | collectionUnknown cotaId => "Cota Id Not Defined[" ++ cotaId.display ++ "]"
  | depNotConfigured => "Secp256k1 Dep Not Configured"
  | hashFormat hash => "Tx Hash Format Error[" ++ hash.display ++ "]"
  | stage name cause =>
    name.display ++ " Failed[" ++ cause.kind.name ++ ": " ++ cause.message ++ "]"
  | raised .key text => Scalar.quoted (.str text)
  | raised _ text => text

/-- A failure whose wording names values. If one of them cannot be written, that is the failure. -/
def naming (named : List Value) (f : Fault) : Fault :=
  if named.all Value.isWritable then f else .unwritable

end Fault
end CellNft
