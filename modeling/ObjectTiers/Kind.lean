/-
The kinds of objects that are kept: the tag and schema version each is written under, the tags it
is read from, and what encryption means for its way through the tiers.
-/

namespace ObjectTiers

/-- What may stand in the cache for an object. -/
inductive Admission
  | plaintext
  | asCiphertext
  | never
  deriving DecidableEq, Repr

/-- How a kind is protected. A kind that would have to be cached decrypted is not cached. -/
inductive Encryption
  | disabled
  | cacheEncrypted
  | cacheDecrypted
  deriving DecidableEq, Repr

instance : Inhabited Encryption := ⟨.disabled⟩

/-- Whether objects are encrypted in the table. -/
def Encryption.isEnabled : Encryption → Bool
  | .disabled => false
  | _ => true

/-- What may stand in the cache for an object that is protected so. -/
def Encryption.admission : Encryption → Admission
  | .disabled => .plaintext
  | .cacheEncrypted => .asCiphertext
  | .cacheDecrypted => .never

/-- The kinds of objects. -/
inductive Kind
  | smtp | mailer | creds | vault | signing | flags | document | refuses
  deriving DecidableEq, Repr

namespace Kind

/-- The name of the record in messages. -/
def recordName : Kind → String
  | smtp => "SmtpConfig"
  | mailer => "MailerSettings"
  | creds => "ApiCredentials"
  | vault => "VaultSettings"
  | signing => "SigningKey"
  | flags => "FeatureFlags"
  | document => "Document"
  | refuses => "Refuses"

/-- The tag written into every frame of the kind. -/
def tag : Kind → String
  | smtp => "app.SmtpConfig"
  | mailer => "app.MailerSettings"
  | creds => "app.ApiCredentials"
  | vault => "app.VaultSettings"
  | signing => "app.SigningKey"
  | flags => "it.FeatureFlags"
  | document => "app.Document"
  | refuses => "app.Refuses"

/-- The highest schema version that is read, and the one that is written. -/
def schema : Kind → UInt16
  | smtp => 1
  | mailer => 2
  | creds => 1
  | vault => 3
  | signing => 1
  | flags => 1
  | document => 65535
  | refuses => 1

/-- How a kind is protected. -/
def encryption : Kind → Encryption
  | smtp | mailer | flags | document => .disabled
  | creds | vault | refuses => .cacheEncrypted
  | signing => .cacheDecrypted

/-- Tags of other kinds that are read as this one. -/
def olderTags : Kind → List String
  | mailer => [smtp.tag]
  | vault => [creds.tag]
  | _ => []

/-- Whether a stored tag may be read as the kind. -/
def accepts (k : Kind) (t : String) : Bool := t == k.tag || k.olderTags.contains t

/-- Whether objects of a kind are encrypted in the table. -/
def isEncrypted (k : Kind) : Bool := k.encryption.isEnabled

end Kind

end ObjectTiers
