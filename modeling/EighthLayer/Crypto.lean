import EighthLayer.Lib.Signature
import EighthLayer.Lib.Sha256

/-!
# EighthLayer.Crypto

`crypto.py`: unpadded base64url and raw Ed25519 signatures as text. The scheme
itself (`cryptography.hazmat`) is a parameter, `Lib.SignatureScheme`.
-/

namespace EighthLayer

open Lib

/-! ## base64url -/

/-- `crypto.b64u`. -/
def b64u (b : Bytes) : String := String.ofList (b64Encode b)

/-- `crypto.b64u_decode`; `none` is its `ValueError`. -/
def b64uDecode (s : String) : Option Bytes := b64Decode s.toList

@[simp] theorem b64uDecode_b64u (b : Bytes) : b64uDecode (b64u b) = some b := by
  rw [b64uDecode, b64u, String.toList_ofList, b64Decode_b64Encode]

theorem b64u_ne_empty {b : Bytes} (h : b ≠ []) : b64u b ≠ "" := by
  intro heq
  have hround := b64uDecode_b64u b
  rw [heq] at hround
  exact h (Option.some.inj hround).symm

/-- base64url text is ASCII. -/
theorem b64u_ascii (b : Bytes) : (b64u b).toList.all (fun c => c.toNat < 128) = true := by
  rw [b64u, String.toList_ofList]
  exact b64Encode_ascii b

/-! ## Raw signatures -/

variable (sch : SignatureScheme)

/-- `crypto.public_key_b64u`. -/
def publicKeyB64u (privkey : sch.PrivKey) : String := b64u (sch.publicKey privkey)

/-- `crypto.sign_raw`. -/
def signRaw (privkey : sch.PrivKey) (message : Bytes) : String := b64u (sch.sign privkey message)

/-- `crypto.verify_raw`: false on any failure, a text that does not decode included. -/
def verifyRaw (pubkeyB64u : String) (message : Bytes) (signatureB64u : String) : Bool :=
  match b64uDecode pubkeyB64u, b64uDecode signatureB64u with
  | some pub, some sig => sch.verify pub message sig
  | _, _ => false

/-- What `sign_raw` writes, `verify_raw` accepts under the signer's key. -/
theorem verifyRaw_signRaw (privkey : sch.PrivKey) (message : Bytes) :
    verifyRaw sch (publicKeyB64u sch privkey) message (signRaw sch privkey message) = true := by
  simp only [verifyRaw, publicKeyB64u, signRaw, b64uDecode_b64u, sch.verify_sign]

end EighthLayer
