import Rehost.CommandLine.Switch
import Rehost.Text.Quoted

/-! What can be wrong with a command line. -/
namespace Rehost.CommandLine

inductive Misuse where
  /-- A beginning that several names share. -/
  | ambiguous (word : Text) (names : List Text)
  | noValue (s : Switch)
  /-- A value attached to an option that takes none. -/
  | needlessValue (s : Switch) (value : Text)
  | unrecognised (words : List Text)
deriving DecidableEq, Repr

def Misuse.message : Misuse → Text
  | ambiguous word names => "ambiguous option: " ++ word ++ " could match " ++ Text.join ", " names
  | noValue s => "argument " ++ s.title ++ ": expected one argument"
  | needlessValue s value =>
    "argument " ++ s.title ++ ": ignored explicit argument " ++ Text.quoted value
  | unrecognised words => "unrecognized arguments: " ++ Text.join " " words

end Rehost.CommandLine
