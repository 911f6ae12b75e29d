import Mathlib.Algebra.Group.Nat.Defs
import Mathlib.Data.List.Basic
import DjangoMojo.Foundation.Checks

/-! # The vault file format

A header of 64 bytes, which nothing authenticates, and then the chunks: each is the nonce that
its index determines, the ciphertext and the tag. The last chunk is what remains of the file.
-/

namespace DjangoMojo.Crypto

open Foundation

abbrev Bytes := List UInt8

/-! ### Big-endian words -/

/-- `struct.pack(">I", value)`, which raises for what does not fit. -/
def packU32 (value : Nat) : Option Bytes :=
  if value < 2 ^ 32 then
    some [UInt8.ofNat (value / 2 ^ 24), UInt8.ofNat (value / 2 ^ 16), UInt8.ofNat (value / 2 ^ 8),
      UInt8.ofNat value]
  else none

/-- `struct.unpack(">I", bytes)`. -/
def unpackU32 (bytes : Bytes) : Nat := bytes.foldl (fun value byte => value * 2 ^ 8 + byte.toNat) 0

theorem unpackU32_packU32 {value : Nat} {bytes : Bytes} (hpack : packU32 value = some bytes) :
    unpackU32 bytes = value ∧ bytes.length = 4 := by
  unfold packU32 at hpack
  split at hpack
  · cases hpack
    refine ⟨?_, rfl⟩
    simp only [unpackU32, List.foldl_cons, List.foldl_nil, UInt8.toNat_ofNat']
    omega
  · cases hpack

/-! ### The ciphers -/

/-- PBKDF2, the nonce derivation and AES-GCM, with the lengths that the format rests on. -/
structure Cipher where
  deriveKey : Bytes → Bytes → Bytes
  chunkNonce : Bytes → Nat → Bytes
  encryptAndDigest : Bytes → Bytes → Bytes → Bytes × Bytes
  decryptAndVerify : Bytes → Bytes → Bytes → Bytes → Option Bytes
  nonce_length : ∀ key index, (chunkNonce key index).length = 12
  tag_length : ∀ key nonce plaintext, (encryptAndDigest key nonce plaintext).2.length = 16
  ciphertext_length : ∀ key nonce plaintext,
    (encryptAndDigest key nonce plaintext).1.length = plaintext.length

inductive VaultError where
  | structError
  | headerTooShort
  | invalidMagic (magic : Bytes)
  | nonceMismatch (index : Nat)
  | authenticationFailed
  deriving DecidableEq

namespace Vault

/-- `b"VF02"`. -/
def magic : Bytes := [86, 70, 48, 50]

def headerSize : Nat := 64
def nonceLength : Nat := 12
def tagLength : Nat := 16

def defaultChunkSize : Nat := 5 * 1024 * 1024

structure HeaderInfo where
  chunkSize : Nat
  kdfSalt : Bytes
  totalChunks : Nat
  deriving DecidableEq

def buildHeader (chunkSize : Nat) (kdfSalt : Bytes) (totalChunks : Nat) :
    Except VaultError Bytes :=
  match packU32 chunkSize, packU32 totalChunks with
  | some size, some total => .ok (magic ++ size ++ kdfSalt ++ total ++ List.replicate 20 0)
  | _, _ => .error .structError

def parseHeader (header : Bytes) : Except VaultError HeaderInfo :=
  if header.length < headerSize then .error .headerTooShort
  else if header.take 4 ≠ magic then .error (.invalidMagic (header.take 4))
  else .ok {
    chunkSize := unpackU32 ((header.drop 4).take 4)
    kdfSalt := (header.drop 8).take 32
    totalChunks := unpackU32 ((header.drop 40).take 4) }

/-- The key of a file: with a password, the passphrase is the password and the ekey. -/
def passphrase (ekey : Bytes) (password : Option Bytes) : Bytes :=
  match password with
  | some password => if password = [] then ekey else password ++ ekey
  | none => ekey

/-- The slices that the loop takes; `fuel` bounds their number. -/
def slices (size : Nat) : Nat → Bytes → List Bytes
  | 0, _ => []
  | fuel + 1, bytes =>
    if bytes = [] then [] else bytes.take size :: slices size fuel (bytes.drop size)

/-- The plaintext chunks; an empty file has one, which is empty. -/
def plainChunks (size : Nat) (bytes : Bytes) : List Bytes :=
  let chunks := slices size bytes.length bytes
  if chunks = [] then [[]] else chunks

end Vault

open Vault

namespace Cipher

variable (cipher : Cipher)

def encryptChunk (key : Bytes) (index : Nat) (plaintext : Bytes) : Bytes :=
  let nonce := cipher.chunkNonce key index
  let sealed := cipher.encryptAndDigest key nonce plaintext
  nonce ++ sealed.1 ++ sealed.2

def decryptChunk (key : Bytes) (index : Nat) (data : Bytes) : Except VaultError Bytes :=
  let nonce := data.take nonceLength
  if nonce ≠ cipher.chunkNonce key index then .error (.nonceMismatch index)
  else
    let tag := data.drop (data.length - tagLength)
    let ciphertext := (data.take (data.length - tagLength)).drop nonceLength
    match cipher.decryptAndVerify key nonce ciphertext tag with
    | some plaintext => .ok plaintext
    | none => .error .authenticationFailed

def sealChunks (key : Bytes) : Nat → List Bytes → Bytes
  | _, [] => []
  | index, chunk :: rest => cipher.encryptChunk key index chunk ++ sealChunks key (index + 1) rest

/-- `salt` is what the random source answers. -/
def encryptFile (salt bytes ekey : Bytes) (password : Option Bytes) (chunkSize : Option Nat) :
    Except VaultError Bytes := do
  let size := chunkSize.getD defaultChunkSize
  let key := cipher.deriveKey (passphrase ekey password) salt
  let chunks := plainChunks size bytes
  let header ← buildHeader size salt chunks.length
  return header ++ cipher.sealChunks key 0 chunks

/-- The loop of `decrypt_file` over `count` more chunks, the last of which takes what is left
of the data. -/
def openChunks (key : Bytes) (chunkSize : Nat) : Nat → Nat → Bytes → Except VaultError Bytes
  | _, 0, _ => .ok []
  | index, 1, data => cipher.decryptChunk key index data
  | index, count + 2, data => do
      let size := nonceLength + chunkSize + tagLength
      let first ← cipher.decryptChunk key index (data.take size)
      let rest ← openChunks key chunkSize (index + 1) (count + 1) (data.drop size)
      return first ++ rest

def decryptFile (blob ekey : Bytes) (password : Option Bytes) : Except VaultError Bytes := do
  let info ← parseHeader (blob.take headerSize)
  let key := cipher.deriveKey (passphrase ekey password) info.kdfSalt
  cipher.openChunks key info.chunkSize 0 info.totalChunks (blob.drop headerSize)

end Cipher

/-! ### Headers -/

namespace Vault

theorem buildHeader_ok {chunkSize totalChunks : Nat} {salt header : Bytes}
    (hheader : buildHeader chunkSize salt totalChunks = .ok header) (hsalt : salt.length = 32) :
    header.length = headerSize ∧ parseHeader header = .ok ⟨chunkSize, salt, totalChunks⟩ := by
  unfold buildHeader at hheader
  split at hheader
  next size total hsize htotal =>
    cases hheader
    obtain ⟨hsizeValue, hsizeLength⟩ := unpackU32_packU32 hsize
    obtain ⟨htotalValue, htotalLength⟩ := unpackU32_packU32 htotal
    have hlength : (magic ++ size ++ salt ++ total ++ List.replicate 20 0).length = headerSize := by
      simp [magic, headerSize, hsizeLength, htotalLength, hsalt]
    refine ⟨hlength, ?_⟩
    rw [parseHeader, if_neg (by rw [hlength]; exact Nat.lt_irrefl _), if_neg]
    · have hdropSize : (magic ++ size ++ salt ++ total ++ List.replicate 20 0).drop 4 =
          size ++ (salt ++ (total ++ List.replicate 20 0)) := by
        simp [magic]
      have hdropSalt : (magic ++ size ++ salt ++ total ++ List.replicate 20 0).drop 8 =
          salt ++ (total ++ List.replicate 20 0) := by
        rw [show (8 : Nat) = 4 + 4 from rfl, ← List.drop_drop, hdropSize,
          List.drop_append_of_le_length (Nat.le_of_eq hsizeLength.symm), ← hsizeLength,
          List.drop_length, List.nil_append]
      have hdropTotal : (magic ++ size ++ salt ++ total ++ List.replicate 20 0).drop 40 =
          total ++ List.replicate 20 0 := by
        rw [show (40 : Nat) = 8 + 32 from rfl, ← List.drop_drop, hdropSalt, ← hsalt,
          List.drop_left]
      rw [hdropSize, hdropSalt, hdropTotal, ← hsizeLength, List.take_left, ← hsalt,
        List.take_left, hsizeLength, ← htotalLength, List.take_left, hsizeValue, htotalValue]
    · simp [magic]
  · cases hheader

theorem buildHeader_isOk {chunkSize totalChunks : Nat} (salt : Bytes) :
    (∃ header, buildHeader chunkSize salt totalChunks = .ok header) ↔
      chunkSize < 2 ^ 32 ∧ totalChunks < 2 ^ 32 := by
  unfold buildHeader packU32
  by_cases hsize : chunkSize < 2 ^ 32
  · rw [if_pos hsize]
    by_cases htotal : totalChunks < 2 ^ 32
    · rw [if_pos htotal]
      exact iff_of_true ⟨_, rfl⟩ ⟨hsize, htotal⟩
    · rw [if_neg htotal]
      exact iff_of_false (fun ⟨_, hok⟩ => nomatch hok) (fun hboth => htotal hboth.2)
  · rw [if_neg hsize]
    exact iff_of_false (fun ⟨_, hok⟩ => nomatch hok) (fun hboth => hsize hboth.1)

theorem totalChunks_lt {header : Bytes} {info : HeaderInfo}
    (hinfo : parseHeader header = .ok info) : info.totalChunks < 2 ^ 32 := by
  unfold parseHeader at hinfo
  split at hinfo
  · cases hinfo
  split at hinfo
  · cases hinfo
  cases hinfo
  -- four bytes make no larger word
  have hbound : ∀ bytes : Bytes, bytes.length ≤ 4 → unpackU32 bytes < 2 ^ 32 := by
    intro bytes hlength
    rw [unpackU32]
    match bytes, hlength with
    | [], _ => decide
    | [a], _ => simp only [List.foldl]; have := a.toNat_lt; omega
    | [a, b], _ => simp only [List.foldl]; have := a.toNat_lt; have := b.toNat_lt; omega
    | [a, b, c], _ =>
      simp only [List.foldl]
      have := a.toNat_lt
      have := b.toNat_lt
      have := c.toNat_lt
      omega
    | [a, b, c, d], _ =>
      simp only [List.foldl]
      have := a.toNat_lt
      have := b.toNat_lt
      have := c.toNat_lt
      have := d.toNat_lt
      omega
  exact hbound _ (List.length_take_le _ _)

end Vault

end DjangoMojo.Crypto
