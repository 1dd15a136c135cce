/-!
# Tags

A tag is octets up to the first zero.  It mostly writes characters in UTF-8, but need not.  The core tags name the
types that all documents know; a tag that starts with an exclamation mark is a document's own.
-/

namespace Eligibility.Yaml

/-- The octets of a tag. -/
structure Tag where
  octets : List UInt8
  deriving DecidableEq

namespace Tag

/-- The tag of octets, up to the first zero. -/
def ofOctets (octets : List UInt8) : Tag := ⟨octets.takeWhile (· ≠ 0)⟩

def ofString (text : String) : Tag := ofOctets (text.toList.flatMap String.utf8EncodeChar)

def append (a b : Tag) : Tag := ⟨a.octets ++ b.octets⟩

instance : Append Tag := ⟨append⟩

/-- **A core tag.** -/
def core (name : String) : Tag := ofString ("tag:yaml.org,2002:" ++ name)

/-- The tag that is an exclamation mark alone. -/
def mark : Tag := ofString "!"

/-- Whether a tag starts with an exclamation mark. -/
def isLocal (t : Tag) : Bool := t.octets.head? == some 0x21

/-- Whether a tag writes characters. -/
def isText (t : Tag) : Bool := t.octets.toByteArray.validateUTF8

/-- **Whether a tag names a type of the document's own**, which has no meaning here. -/
def isUnknown (t : Tag) : Bool := t.isLocal && t.isText

end Tag
end Eligibility.Yaml
