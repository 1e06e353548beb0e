import CrashTriage.Plist.Binary
import CrashTriage.Plist.OpenStep
import CrashTriage.Plist.Xml

/-
Reading property lists of any form. A document that starts with the binary mark is binary. Otherwise it
is XML, or, when it is broken before anything of XML has been found, the form with braces.
-/
namespace CrashTriage

namespace Plist

/-- The fewest bytes of a document, which the mark of the binary form fills. -/
def leastSize : Nat := 8

/-- The value of a document. -/
def read? (bytes : Bytes) : Option Plist :=
  if bytes.length < leastSize then none
  else if binaryMark.isPrefixOf bytes then readBinary? bytes
  else
    match readXml bytes with
    | .broken :: _ => ((OpenStep.events bytes).mapM id).bind ofEvents?
    | items => (XmlItem.events? items).bind ofEvents?

end Plist

end CrashTriage
