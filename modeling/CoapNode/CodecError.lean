import CoapNode.Code
import CoapNode.OptionTable
/-! Reasons why a message cannot be read, edited or written, and what a diagnostic
reply to a malformed message has to say. -/
namespace CoapNode

inductive CodecError where
  /-- Shorter than a header, or a type number above three. -/
  | notCoap
  | wrongVersion
  /-- The option number is not in the option table. -/
  | unknownOption
  /-- The kind of value is not the one the option carries. -/
  | wrongFormat
  /-- The arena or an output buffer is full. -/
  | noRoom
  | optionNotSet
  /-- A second occurrence of an option that occurs at most once. -/
  | optionAlreadySet
  | valueTooLong
  | unknownCritical
  | repeatedCritical
  | emptyText
  /-- The options run past the end of the datagram. -/
  | optionsOverrun
  | invalidUtf8
  deriving DecidableEq, Repr, Inhabited

namespace CodecError

def message : CodecError → String
  | notCoap => "not a coap message"
  | wrongVersion => "unsupported coap version"
  | unknownOption => "unknown option"
  | wrongFormat => "option value has the wrong type"
  | noRoom => "out of memory"
  | optionNotSet => "option not set"
  | optionAlreadySet => "option already set"
  | valueTooLong => "option too long"
  | unknownCritical => "unknown critical option"
  | repeatedCritical => "critical option repeated"
  | emptyText => "empty string option"
  | optionsOverrun => "options exceed packet length"
  | invalidUtf8 => "option is not utf-8"

def label : CodecError → String
  | notCoap => "NotCoap"
  | wrongVersion => "WrongCoapVersion"
  | unknownOption => "UnknownOpt"
  | wrongFormat => "WrongType"
  | noRoom => "NoMem"
  | optionNotSet => "OptNotSet"
  | optionAlreadySet => "OptAlreadySet"
  | valueTooLong => "OptTooLong"
  | unknownCritical => "UnknownCriticalOption"
  | repeatedCritical => "MultipleOccurrencesOfCriticalOption"
  | emptyText => "EmptyStringOption"
  | optionsOverrun => "OptionsExceedPacketLength"
  | invalidUtf8 => "InvalidUtf8"

def all : List CodecError :=
  [notCoap, wrongVersion, unknownOption, wrongFormat, noRoom, optionNotSet, optionAlreadySet,
    valueTooLong, unknownCritical, repeatedCritical, emptyText, optionsOverrun, invalidUtf8]

end CodecError

/-- What a reply to a malformed message carries: its code, and the option to blame. -/
structure ErrorContext where
  code : Code := Code.empty
  option : Option OptionNumber := none
  deriving DecidableEq, Repr, Inhabited

end CoapNode
