import CodeAtlas.Digest.Sha256

/-!
# Fingerprints of named text

A component or a file is identified by a fingerprint of its name and its text. The standard
fingerprint is the SHA-256 digest of the name, a zero byte, and the text, so that equal names with
equal text always have the same identifier. The rest of the library works with any fingerprint;
what it needs of one is that the contents of a run have different fingerprints.
-/

namespace CodeAtlas

/-- A function that identifies a name together with a text. -/
abbrev Fingerprint := String → String → String

/-- The bytes that are digested: the name, a zero byte, and the text. -/
def contentBytes (name text : String) : List UInt8 :=
  name.toUTF8.toList ++ 0 :: text.toUTF8.toList

/-- The standard fingerprint. -/
def contentHash : Fingerprint := fun name text =>
  Digest.Sha256.hex (contentBytes name text)

/-- Names with texts, such as those of all files and components that one run gives. -/
abbrev Contents := String → String → Prop

/-- The fingerprint has no collision among the contents. -/
def Fingerprint.CollisionFree (fingerprint : Fingerprint) (contents : Contents) : Prop :=
  ∀ name text name' text' : String, contents name text → contents name' text' →
    fingerprint name text = fingerprint name' text' → name = name' ∧ text = text'

end CodeAtlas
