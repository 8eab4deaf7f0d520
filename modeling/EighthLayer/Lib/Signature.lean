import EighthLayer.Lib.Bytes

/-!
# EighthLayer.Lib.Signature

Deterministic signature schemes over byte strings, such as Ed25519. A scheme is
a structure that carries its completeness law, so that a result about signed
data holds of every lawful scheme. Unforgeability is not a law a function can
have (every message has a signature that verifies); results that need it assume
it of the signatures that occur.
-/

namespace Lib

/-- A signature scheme. Verification takes raw bytes and refuses a public key
or a signature it cannot parse. -/
structure SignatureScheme where
  PrivKey : Type
  publicKey : PrivKey → Bytes
  sign : PrivKey → Bytes → Bytes
  verify : (pub msg sig : Bytes) → Bool
  verify_sign : ∀ k msg, verify (publicKey k) msg (sign k msg) = true

/-- A scheme for closed examples: a signature is the key followed by the message. -/
def SignatureScheme.transparent : SignatureScheme where
  PrivKey := Bytes
  publicKey k := k
  sign k msg := k ++ msg
  verify pub msg sig := sig = pub ++ msg
  verify_sign _ _ := decide_eq_true rfl

end Lib
