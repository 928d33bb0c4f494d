import RefinetPillars.Base64
import RefinetPillars.GaloisField256
import RefinetPillars.Sha256

/-!
# Recovery shares of a private key

Splitting a private key into shares, written as text, and reconstructing it.
Each byte of the key is the constant term of a polynomial of its own.  An
exception of the program is an error.
-/

namespace RefinetPillars

namespace KeyRecovery

open HexText Base64 GaloisField256 Sha256

/-- An exception with its message. -/
inductive Raised where
  | valueError (message : String)
  | zeroDivisionError (message : String)
  | indexError (message : String)
deriving DecidableEq

/-- The value of the polynomial; the constant term is the secret. -/
def evalPolynomial (coeffs : List UInt8) (x : UInt8) : UInt8 :=
  coeffs.reverse.foldl (fun result coeff => gfMul result x ^^^ coeff) 0

/-- `_gf_div` with its exception. -/
def divided (a b : UInt8) : Except Raised UInt8 :=
  match gfDiv a b with
  | some quotient => .ok quotient
  | none => .error (.zeroDivisionError "Division by zero in GF(256)")

/-- The inner loop of the interpolation, over the other points. -/
def lagrangeNumerator (x xi yi : UInt8) (i : Nat)
    (points : List ((UInt8 × UInt8) × Nat)) : Except Raised UInt8 :=
  points.foldlM (fun num point =>
    if i ≠ point.2 then do
      let factor ← divided (x ^^^ point.1.1) (xi ^^^ point.1.1)
      return gfMul num factor
    else return num) yi

def lagrangeInterpolate (points : List (UInt8 × UInt8)) (x : UInt8) :
    Except Raised UInt8 :=
  points.zipIdx.foldlM (fun result point => do
    let num ← lagrangeNumerator x point.1.1 point.1.2 point.2 points.zipIdx
    return result ^^^ num) 0

/-- Split one byte; `urandom` are the random bytes drawn. -/
def splitByte (secretByte : UInt8) (threshold numShares : Nat)
    (urandom : Nat → UInt8) : List (UInt8 × UInt8) :=
  let coeffs := secretByte :: (List.range (threshold - 1)).map urandom
  (List.range numShares).map fun i =>
    (UInt8.ofNat (i + 1), evalPolynomial coeffs (UInt8.ofNat (i + 1)))

/-- A share of a key: its index, the number of shares needed, the fingerprint
of the key, and one byte for each byte of the key. -/
structure Share where
  x : UInt8
  threshold : UInt8
  fingerprint : List UInt8
  yValues : List UInt8
deriving DecidableEq

def sharePrefix : Text := "REFINET-SHARE-".toList

def Share.encode (share : Share) : Text :=
  sharePrefix ++
    b64encode (share.x :: share.threshold :: share.fingerprint ++ share.yValues)

/-- The bytes of a text in UTF-8. -/
def encodeUtf8 (text : Text) : List UInt8 := text.flatMap String.utf8EncodeChar

theorem encodeUtf8_injective : Function.Injective encodeUtf8 := by
  intro first second same
  have bytes : first.utf8Encode = second.utf8Encode := by
    unfold List.utf8Encode
    exact congrArg List.toByteArray same
  exact String.ofList_injective (String.toByteArray_inj.mp bytes)

/-- The first four bytes of the hash of a key. -/
def fingerprintOf (privateKeyHex : Text) : List UInt8 :=
  (sha256 (encodeUtf8 privateKeyHex)).take 4

/-- Every byte split with the next `threshold - 1` random bytes. -/
def splitBytes (secretBytes : List UInt8) (threshold numShares : Nat)
    (urandom : Nat → UInt8) : List (List (UInt8 × UInt8)) :=
  secretBytes.zipIdx.map fun byte =>
    splitByte byte.1 threshold numShares fun draw =>
      urandom (byte.2 * (threshold - 1) + draw)

/-- Group the split bytes by share. -/
def assembleShares (allShares : List (List (UInt8 × UInt8)))
    (threshold numShares : Nat) (fingerprint : List UInt8) : List Share :=
  (List.range numShares).map fun shareIdx =>
    { x := ((allShares.getD 0 []).getD shareIdx (0, 0)).1
      threshold := UInt8.ofNat threshold
      fingerprint := fingerprint
      yValues := allShares.map fun byteShares =>
        (byteShares.getD shareIdx (0, 0)).2 }

def splitKey (privateKeyHex : Text) (threshold numShares : Nat)
    (urandom : Nat → UInt8) : Except Raised (List Text) :=
  if threshold < 2 then .error (.valueError "Threshold must be at least 2")
  else if numShares < threshold then
    .error (.valueError "num_shares must be >= threshold")
  else if 255 < numShares then .error (.valueError "Maximum 255 shares")
  else
    match fromHex privateKeyHex with
    | none =>
        .error (.valueError "non-hexadecimal number found in fromhex() arg")
    | some secretBytes =>
        if secretBytes = [] then
          .error (.valueError "Private key cannot be empty")
        else
          .ok ((assembleShares
            (splitBytes secretBytes threshold numShares urandom)
            threshold numShares (fingerprintOf privateKeyHex)).map Share.encode)

def parseShare (shareStr : Text) : Except Raised Share :=
  if sharePrefix.isPrefixOf shareStr then
    match b64decode (shareStr.drop sharePrefix.length) with
    | none => .error (.valueError "Invalid share — base64 decode failed")
    | some raw =>
        if raw.length < 7 then .error (.valueError "Share too short")
        else
          match raw with
          | x :: threshold :: rest =>
              .ok ⟨x, threshold, rest.take 4, rest.drop 4⟩
          | _ => .error (.indexError "index out of range")
  else
    .error (.valueError
      "Invalid share format — missing REFINET-SHARE- prefix")

/-- A share against the first one. -/
def checkShare (first share : Share) : Except Raised Unit :=
  if share.threshold ≠ first.threshold then
    .error (.valueError "Shares have mismatched thresholds")
  else if share.fingerprint ≠ first.fingerprint then
    .error (.valueError
      "Shares are from different keys (fingerprint mismatch)")
  else if share.yValues.length ≠ first.yValues.length then
    .error (.valueError "Shares have mismatched lengths")
  else .ok ()

/-- The checks of the shares once parsed. -/
def checkShares (first : Share) (parsed : List Share) : Except Raised Unit := do
  let needed := first.threshold.toNat
  let count := parsed.length
  if count < needed then
    throw (.valueError s!"Need at least {needed} shares, got {count}")
  parsed.forM (checkShare first)
  if ¬ (parsed.map Share.x).Nodup then
    throw (.valueError "Duplicate shares provided")

/-- Parse and check the shares, and keep the first one at hand. -/
def acceptShares (shares : List Text) : Except Raised (Share × List Share) := do
  if shares = [] then throw (.valueError "No shares provided")
  let parsed ← shares.mapM parseShare
  match parsed with
  | [] => throw (.indexError "list index out of range")
  | first :: rest =>
      checkShares first (first :: rest)
      return (first, first :: rest)

/-- The point of a share for one byte of the key. -/
def sharePoint (byteIdx : Nat) (share : Share) :
    Except Raised (UInt8 × UInt8) :=
  match share.yValues[byteIdx]? with
  | some y => .ok (share.x, y)
  | none => .error (.indexError "index out of range")

/-- Reconstruct one byte of the key. -/
def recoverByte (used : List Share) (byteIdx : Nat) : Except Raised UInt8 := do
  let points ← used.mapM (sharePoint byteIdx)
  lagrangeInterpolate points 0

def recoverKey (shares : List Text) : Except Raised Text := do
  let (first, parsed) ← acceptShares shares
  let used := parsed.take first.threshold.toNat
  let recovered ← (List.range first.yValues.length).mapM (recoverByte used)
  return toHex recovered

end KeyRecovery

end RefinetPillars
