/-!
# Abort codes

The codes of CiA 301 with which a node gives up an access to its object dictionary.
-/
namespace Canopen

abbrev AbortCode := UInt32

namespace AbortCode

def objectNotFound : AbortCode := 0x06020000
def lengthTooHigh : AbortCode := 0x06070012
def lengthTooLow : AbortCode := 0x06070013
def subIndexNotFound : AbortCode := 0x06090011
def invalidValue : AbortCode := 0x06090030
def deviceState : AbortCode := 0x08000022

def description (code : AbortCode) : String :=
  match code.toNat with
  | 0x05030000 => "Toggle bit not altered"
  | 0x05040000 => "SDO protocol timed out"
  | 0x06010000 => "Unsupported access to an object"
  | 0x06010001 => "Attempt to read a write only object"
  | 0x06010002 => "Attempt to write a read only object"
  | 0x06020000 => "Object does not exist in the object dictionary"
  | 0x06040041 => "Object cannot be mapped to the PDO"
  | 0x06060000 => "Access failed due to a hardware error"
  | 0x06070010 => "Data type does not match, length of service parameter does not match"
  | 0x06070012 => "Data type does not match, length of service parameter too high"
  | 0x06070013 => "Data type does not match, length of service parameter too low"
  | 0x06090011 => "Sub-index does not exist"
  | 0x06090030 => "Invalid value for parameter"
  | 0x06090031 => "Value of parameter written too high"
  | 0x06090032 => "Value of parameter written too low"
  | 0x08000000 => "General error"
  | 0x08000020 => "Data cannot be transferred or stored to the application"
  | 0x08000021 => "Data cannot be transferred because of local control"
  | 0x08000022 => "Data cannot be transferred because of the present device state"
  | 0x08000024 => "No data available"
  | _ => "Unknown abort code"

/-- Holds of the codes that mean that a node has no entry at an address. -/
def isNotFound (code : AbortCode) : Bool := code = objectNotFound || code = subIndexNotFound

end AbortCode

end Canopen
