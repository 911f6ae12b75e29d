import DjangoMojo.Crypto.Vault

/-! # What a vault file lets through

A file that was encrypted decrypts to what it was made of. A file that was tampered with
decrypts, if at all, to the chunks that its own header counts: to the whole plaintext, or, when
the chunks beyond that count are gone, to the beginning of it.
-/

namespace DjangoMojo.Crypto

open Foundation Vault

/-- Decryption under any key succeeds on exactly the chunks that were encrypted, and their
nonces are distinct. -/
structure Cipher.Produced (cipher : Cipher) (key : Bytes) (chunks : List Bytes) : Prop where
  opens : ∀ index chunk, chunks[index]? = some chunk →
    cipher.decryptAndVerify key (cipher.chunkNonce key index)
      (cipher.encryptAndDigest key (cipher.chunkNonce key index) chunk).1
      (cipher.encryptAndDigest key (cipher.chunkNonce key index) chunk).2 = some chunk
  only : ∀ other nonce ciphertext tag plaintext,
    cipher.decryptAndVerify other nonce ciphertext tag = some plaintext →
    ∃ index chunk, chunks[index]? = some chunk ∧ other = key ∧
      nonce = cipher.chunkNonce key index ∧
      cipher.encryptAndDigest key nonce chunk = (ciphertext, tag)
  distinct : ∀ first second, first < 2 ^ 32 → second < 2 ^ 32 →
    cipher.chunkNonce key first = cipher.chunkNonce key second → first = second

/-! ### Plaintext chunks -/

namespace Vault

def Full (size : Nat) : List Bytes → Prop
  | [] | [_] => True
  | chunk :: next :: rest => chunk.length = size ∧ Full size (next :: rest)

theorem Full.take {size : Nat} {chunks : List Bytes} (hfull : Full size chunks) (count : Nat) :
    Full size (chunks.take count) := by
  induction chunks generalizing count with
  | nil => simpa using hfull
  | cons chunk rest ih =>
    match count, rest with
    | 0, _ => trivial
    | count + 1, [] =>
      rw [List.take_succ_cons, List.take_nil]
      trivial
    | 1, next :: rest => trivial
    | count + 2, next :: rest => exact ⟨hfull.1, ih hfull.2 (count + 1)⟩

theorem slices_spec {size : Nat} (hsize : 0 < size) (fuel : Nat) (bytes : Bytes)
    (hfuel : bytes.length ≤ fuel) :
    (slices size fuel bytes).flatten = bytes ∧ Full size (slices size fuel bytes) ∧
      ∀ chunk ∈ slices size fuel bytes, chunk ≠ [] := by
  induction fuel generalizing bytes with
  | zero =>
    have hnil : bytes = [] := List.length_eq_zero_iff.mp (Nat.le_zero.mp hfuel)
    subst hnil
    exact ⟨rfl, trivial, fun _ hmem => absurd hmem List.not_mem_nil⟩
  | succ fuel ih =>
    rw [slices]
    split
    next hnil => exact ⟨by rw [hnil]; rfl, trivial, fun _ hmem => absurd hmem List.not_mem_nil⟩
    next hne =>
      have hpos : 0 < bytes.length := List.length_pos_iff.mpr hne
      obtain ⟨hflatten, hfull, hnonempty⟩ :=
        ih (bytes.drop size) (by rw [List.length_drop]; omega)
      refine ⟨?_, ?_, ?_⟩
      · rw [List.flatten_cons, hflatten, List.take_append_drop]
      · cases hrest : slices size fuel (bytes.drop size) with
        | nil => trivial
        | cons next rest =>
          rw [hrest] at hfull
          refine ⟨?_, hfull⟩
          -- something is left, so the slice is not cut short
          rw [List.length_take, Nat.min_eq_left]
          by_contra hshort
          rw [List.drop_eq_nil_of_le (by omega)] at hrest
          cases fuel with
          | zero => cases hrest
          | succ fuel => simp [slices] at hrest
      · intro chunk hchunk
        rcases List.mem_cons.mp hchunk with rfl | hchunk
        · rw [← List.length_pos_iff, List.length_take]
          omega
        · exact hnonempty chunk hchunk

variable {size : Nat} {bytes : Bytes}

theorem plainChunks_flatten (hsize : 0 < size) : (plainChunks size bytes).flatten = bytes := by
  obtain ⟨hflatten, _, _⟩ := slices_spec hsize bytes.length bytes (Nat.le_refl _)
  rw [plainChunks]
  split
  next hnil =>
    rw [hnil] at hflatten
    exact hflatten
  · exact hflatten

theorem plainChunks_full (hsize : 0 < size) : Full size (plainChunks size bytes) := by
  rw [plainChunks]
  split
  · trivial
  · exact (slices_spec hsize bytes.length bytes (Nat.le_refl _)).2.1

theorem plainChunks_ne_nil (size : Nat) (bytes : Bytes) : plainChunks size bytes ≠ [] := by
  rw [plainChunks]
  split
  · exact List.cons_ne_nil _ _
  next hne => exact hne

theorem plainChunks_nonempty (hsize : 0 < size) (hbytes : bytes ≠ []) :
    ∀ chunk ∈ plainChunks size bytes, chunk ≠ [] := by
  obtain ⟨hflatten, _, hnonempty⟩ := slices_spec hsize bytes.length bytes (Nat.le_refl _)
  rw [plainChunks]
  split
  next hnil =>
    rw [hnil] at hflatten
    exact absurd hflatten.symm hbytes
  · exact hnonempty

end Vault

/-! ### Single chunks -/

namespace Cipher

variable {cipher : Cipher} {key other : Bytes} {chunks : List Bytes}

theorem length_encryptChunk (cipher : Cipher) (key : Bytes) (index : Nat) (chunk : Bytes) :
    (cipher.encryptChunk key index chunk).length = nonceLength + chunk.length + tagLength := by
  simp only [encryptChunk, List.length_append, cipher.nonce_length, cipher.ciphertext_length,
    cipher.tag_length, nonceLength, tagLength]

theorem decryptChunk_encryptChunk (hproduced : cipher.Produced key chunks) {index : Nat}
    {chunk : Bytes} (hchunk : chunks[index]? = some chunk) :
    cipher.decryptChunk key index (cipher.encryptChunk key index chunk) = .ok chunk := by
  have hnonce := cipher.nonce_length key index
  have htag := cipher.tag_length key (cipher.chunkNonce key index) chunk
  have hlength := cipher.length_encryptChunk key index chunk
  have hcut : (cipher.encryptChunk key index chunk).length - tagLength =
      (cipher.chunkNonce key index ++
        (cipher.encryptAndDigest key (cipher.chunkNonce key index) chunk).1).length := by
    rw [hlength, List.length_append, hnonce, cipher.ciphertext_length, nonceLength]
    omega
  have htake : (cipher.encryptChunk key index chunk).take nonceLength =
      cipher.chunkNonce key index := by
    rw [encryptChunk, List.append_assoc, nonceLength, ← hnonce, List.take_left]
  rw [decryptChunk]
  dsimp only
  rw [if_neg (not_not_intro htake), hcut, htake]
  have hsplit : cipher.encryptChunk key index chunk =
      cipher.chunkNonce key index ++
        (cipher.encryptAndDigest key (cipher.chunkNonce key index) chunk).1 ++
        (cipher.encryptAndDigest key (cipher.chunkNonce key index) chunk).2 := rfl
  rw [hsplit, List.drop_left, List.take_left, nonceLength, ← hnonce, List.drop_left,
    hproduced.opens index chunk hchunk]

/-- What decrypts at an index is the chunk that was encrypted there; unless it is empty, it was
not touched. -/
theorem decryptChunk_ok (hproduced : cipher.Produced key chunks) (hcount : chunks.length ≤ 2 ^ 32)
    {index : Nat} (hindex : index < 2 ^ 32) {data plaintext : Bytes}
    (hok : cipher.decryptChunk other index data = .ok plaintext) :
    other = key ∧ chunks[index]? = some plaintext ∧ nonceLength ≤ data.length ∧
      (plaintext ≠ [] → data = cipher.encryptChunk key index plaintext) := by
  rw [decryptChunk] at hok
  dsimp only at hok
  split at hok
  · cases hok
  next hnonce =>
    rw [not_not] at hnonce
    split at hok
    next found hfound =>
      cases hok
      obtain ⟨position, chunk, hchunk, rfl, hderived, hsealed⟩ :=
        hproduced.only _ _ _ _ _ hfound
      have hposition : position < chunks.length := (List.getElem?_eq_some_iff.mp hchunk).1
      have heq : position = index := by
        refine hproduced.distinct position index (by omega) hindex ?_
        rw [← hderived, hnonce]
      subst heq
      have hopens := hproduced.opens position chunk hchunk
      rw [← hnonce, hsealed] at hopens
      dsimp only at hopens
      have hsame : chunk = plaintext := Option.some.inj (hopens.symm.trans hfound)
      subst hsame
      have hlength : (data.take nonceLength).length = nonceLength := by
        rw [hnonce, cipher.nonce_length, nonceLength]
      rw [List.length_take] at hlength
      refine ⟨rfl, hchunk, by omega, fun hne => ?_⟩
      have hciphertext := cipher.ciphertext_length other (data.take nonceLength) chunk
      rw [hsealed] at hciphertext
      have hpos : 0 < chunk.length := List.length_pos_iff.mpr hne
      rw [List.length_drop, List.length_take] at hciphertext
      rw [encryptChunk, ← hnonce, hsealed]
      -- the nonce, the ciphertext and the tag are the whole of the data
      have hfront : data.take nonceLength ++
          (data.take (data.length - tagLength)).drop nonceLength =
            data.take (data.length - tagLength) := by
        conv_rhs => rw [← List.take_append_drop nonceLength (data.take (data.length - tagLength))]
        rw [List.take_take, Nat.min_eq_left (by omega)]
      rw [hfront, List.take_append_drop]
    · cases hok

/-! ### Whole files -/

theorem openChunks_sealChunks (hproduced : cipher.Produced key chunks) {size : Nat}
    (part : List Bytes) (index : Nat) (hfull : part.length = 1 ∨ Full size part)
    (hpart : ∀ offset chunk, part[offset]? = some chunk → chunks[index + offset]? = some chunk) :
    cipher.openChunks key size index part.length (cipher.sealChunks key index part) =
      .ok part.flatten := by
  induction part generalizing index with
  | nil => rfl
  | cons chunk rest ih =>
    have hchunk : chunks[index]? = some chunk := hpart 0 chunk rfl
    cases rest with
    | nil =>
      simp only [List.length_singleton, openChunks, sealChunks, List.append_nil,
        List.flatten_cons, List.flatten_nil]
      exact decryptChunk_encryptChunk hproduced hchunk
    | cons next rest =>
      have hboth : Full size (chunk :: next :: rest) :=
        hfull.resolve_left (by simp)
      have hlength : (cipher.encryptChunk key index chunk).length =
          nonceLength + size + tagLength := by
        rw [length_encryptChunk, hboth.1]
      have hrest := ih (index + 1) (.inr hboth.2) fun offset found hfound => by
        have hshift := hpart (offset + 1) found (by simpa using hfound)
        rwa [show index + 1 + offset = index + (offset + 1) by omega]
      rw [List.length_cons, List.length_cons] at *
      simp only [openChunks]
      rw [sealChunks, ← hlength, List.take_left, List.drop_left,
        decryptChunk_encryptChunk hproduced hchunk, hrest]
      rfl

/-- A file that decrypts holds the chunks of the plaintext, from the first on, as many as are
asked for. -/
theorem openChunks_ok (hproduced : cipher.Produced key chunks) (hcount : chunks.length ≤ 2 ^ 32)
    {size : Nat} (count index : Nat) (hbound : index + (count + 1) ≤ 2 ^ 32)
    {data plaintext : Bytes}
    (hok : cipher.openChunks other size index (count + 1) data = .ok plaintext) :
    other = key ∧ index + (count + 1) ≤ chunks.length ∧
      plaintext = ((chunks.drop index).take (count + 1)).flatten ∧ nonceLength ≤ data.length ∧
      ((∀ chunk ∈ chunks, chunk ≠ []) →
        data = cipher.sealChunks key index ((chunks.drop index).take (count + 1)) ∧
        (0 < count → ∀ chunk, chunks[index]? = some chunk → chunk.length = size)) := by
  induction count generalizing index data plaintext with
  | zero =>
    obtain ⟨hkey, hchunk, hlength, hdata⟩ :=
      decryptChunk_ok hproduced hcount (by omega) hok
    obtain ⟨hlt, hget⟩ := List.getElem?_eq_some_iff.mp hchunk
    have htake : (chunks.drop index).take 1 = [plaintext] := by
      rw [List.drop_eq_getElem_cons hlt, List.take_succ_cons, hget, List.take_zero]
    refine ⟨hkey, hlt, by rw [htake]; simp, hlength, fun hnonempty => ⟨?_, fun hpos =>
      absurd hpos (by omega)⟩⟩
    have hmem : plaintext ∈ chunks := hget ▸ List.getElem_mem hlt
    rw [htake, hdata (hnonempty plaintext hmem)]
    simp [sealChunks]
  | succ count ih =>
    simp only [openChunks, bind_ok, pure_ok] at hok
    obtain ⟨first, hfirst, rest, hrest, rfl⟩ := hok
    obtain ⟨hkey, hchunk, _, hdata⟩ := decryptChunk_ok hproduced hcount (by omega) hfirst
    obtain ⟨hlt, hget⟩ := List.getElem?_eq_some_iff.mp hchunk
    obtain ⟨_, hle, hplain, hlength, hseal⟩ := ih (index + 1) (by omega) hrest
    have htake : (chunks.drop index).take (count + 1 + 1) =
        first :: (chunks.drop (index + 1)).take (count + 1) := by
      rw [List.drop_eq_getElem_cons hlt, List.take_succ_cons, hget]
    rw [List.length_drop] at hlength
    refine ⟨hkey, by omega, by rw [htake, List.flatten_cons, hplain], by
      simp only [nonceLength, tagLength] at hlength ⊢; omega, fun hnonempty => ?_⟩
    have hne : first ≠ [] := hnonempty first (hget ▸ List.getElem_mem hlt)
    obtain ⟨hdrop, _⟩ := hseal hnonempty
    have hhead := hdata hne
    constructor
    · rw [htake, sealChunks, ← hhead, ← hdrop, List.take_append_drop]
    · intro _ chunk hsame
      rw [hchunk, Option.some.injEq] at hsame
      subst hsame
      -- more data follows, so the first chunk was not cut short
      have hexact := congrArg List.length hhead
      rw [length_encryptChunk, List.length_take] at hexact
      simp only [nonceLength, tagLength] at hexact hlength
      omega

end Cipher

/-! ### Integrity -/

/-- A call of `encrypt_file`, with the salt that was drawn for it. -/
structure Encryption where
  salt : Bytes
  bytes : Bytes
  ekey : Bytes
  password : Option Bytes
  chunkSize : Option Nat

namespace Encryption

variable (run : Encryption) (cipher : Cipher)

def size : Nat := run.chunkSize.getD defaultChunkSize

def chunks : List Bytes := plainChunks run.size run.bytes

def key : Bytes := cipher.deriveKey (passphrase run.ekey run.password) run.salt

structure WellFormed (run : Encryption) : Prop where
  salt : run.salt.length = 32
  positive : 0 < run.size
  bounded : run.size < 2 ^ 32

/-- A file whose header counts fewer chunks than were encrypted, and that holds just these.
Where it counts none, nothing else of the file is looked at. -/
def Shortened (blob : Bytes) : Prop :=
  run.bytes ≠ [] ∧ ∃ info, parseHeader (blob.take headerSize) = .ok info ∧
    info.totalChunks < run.chunks.length ∧
    (info.totalChunks = 0 ∨
      cipher.deriveKey (passphrase run.ekey run.password) info.kdfSalt = run.key cipher ∧
        (info.totalChunks = 1 ∨ info.chunkSize = run.size) ∧
        blob.drop headerSize =
          cipher.sealChunks (run.key cipher) 0 (run.chunks.take info.totalChunks))

/-- The file decrypts to the plaintext, and any other raises or decrypts to it as well. -/
def RoundTrips (blob : Bytes) : Prop :=
  ∃ file, cipher.encryptFile run.salt run.bytes run.ekey run.password run.chunkSize = .ok file ∧
    cipher.decryptFile file run.ekey run.password = .ok run.bytes ∧
    (blob ≠ file → ∀ plaintext,
      cipher.decryptFile blob run.ekey run.password = .ok plaintext → plaintext = run.bytes)

variable {run cipher}

theorem encryptFile_ok (hrun : run.WellFormed) (hcount : run.chunks.length < 2 ^ 32) :
    ∃ header, cipher.encryptFile run.salt run.bytes run.ekey run.password run.chunkSize =
        .ok (header ++ cipher.sealChunks (run.key cipher) 0 run.chunks) ∧
      header.length = headerSize ∧
      parseHeader header = .ok ⟨run.size, run.salt, run.chunks.length⟩ := by
  obtain ⟨header, hheader⟩ := (buildHeader_isOk run.salt).mpr ⟨hrun.bounded, hcount⟩
  obtain ⟨hlength, hparse⟩ := buildHeader_ok hheader hrun.salt
  refine ⟨header, ?_, hlength, hparse⟩
  simp only [Cipher.encryptFile]
  change (buildHeader run.size run.salt run.chunks.length >>= _) = _
  rw [hheader]
  rfl

theorem decryptFile_encryptFile (hrun : run.WellFormed)
    (hproduced : cipher.Produced (run.key cipher) run.chunks) {header : Bytes}
    (hlength : header.length = headerSize)
    (hparse : parseHeader header = .ok ⟨run.size, run.salt, run.chunks.length⟩) :
    cipher.decryptFile (header ++ cipher.sealChunks (run.key cipher) 0 run.chunks) run.ekey
      run.password = .ok run.bytes := by
  have hopen := Cipher.openChunks_sealChunks hproduced run.chunks 0
    (.inr (plainChunks_full hrun.positive)) fun offset chunk hchunk => by rwa [Nat.zero_add]
  rw [Cipher.decryptFile, ← hlength, List.take_left, List.drop_left, hparse]
  change cipher.openChunks (run.key cipher) run.size 0 run.chunks.length _ = _
  rw [hopen, chunks, plainChunks_flatten hrun.positive]

theorem decryptFile_of_shortened (hrun : run.WellFormed)
    (hproduced : cipher.Produced (run.key cipher) run.chunks) {blob : Bytes}
    (hshort : run.Shortened cipher blob) :
    ∃ plaintext, cipher.decryptFile blob run.ekey run.password = .ok plaintext ∧
      plaintext ≠ run.bytes := by
  obtain ⟨hbytes, info, hparse, hlt, hrest⟩ := hshort
  refine ⟨(run.chunks.take info.totalChunks).flatten, ?_, fun heq => ?_⟩
  · rw [Cipher.decryptFile, hparse]
    change cipher.openChunks _ _ 0 info.totalChunks _ = _
    rcases hrest with hzero | ⟨hkey, hsize, hbody⟩
    · rw [hzero]
      rfl
    · rw [hkey, hbody]
      have hlength : (run.chunks.take info.totalChunks).length = info.totalChunks := by
        rw [List.length_take]
        omega
      have hfull : (run.chunks.take info.totalChunks).length = 1 ∨
          Full info.chunkSize (run.chunks.take info.totalChunks) := by
        rcases hsize with hone | hsize
        · exact .inl (hlength.trans hone)
        · rw [hsize]
          exact .inr ((plainChunks_full hrun.positive).take _)
      have hopen := Cipher.openChunks_sealChunks hproduced
        (run.chunks.take info.totalChunks) 0 hfull fun offset chunk hchunk => by
          rw [List.getElem?_take] at hchunk
          split at hchunk
          · rwa [Nat.zero_add]
          · cases hchunk
      rw [hlength] at hopen
      exact hopen
  · -- the chunks that are missing are not empty
    have hflatten : run.bytes = run.chunks.flatten := (plainChunks_flatten hrun.positive).symm
    rw [hflatten, ← List.take_append_drop info.totalChunks run.chunks, List.flatten_append] at heq
    rw [List.take_append_drop] at heq
    have hnil : (run.chunks.drop info.totalChunks).flatten = [] := by
      have hlengths := congrArg List.length heq
      rw [List.length_append] at hlengths
      exact List.length_eq_zero_iff.mp (by omega)
    have hmem : run.chunks[info.totalChunks] ∈ run.chunks.drop info.totalChunks := by
      rw [List.drop_eq_getElem_cons hlt]
      exact List.mem_cons_self
    exact plainChunks_nonempty hrun.positive hbytes _ (List.getElem_mem hlt)
      (List.flatten_eq_nil_iff.mp hnil _ hmem)

theorem shortened_of_decryptFile (hrun : run.WellFormed)
    (hproduced : cipher.Produced (run.key cipher) run.chunks)
    (hcount : run.chunks.length < 2 ^ 32) {blob plaintext : Bytes}
    (hok : cipher.decryptFile blob run.ekey run.password = .ok plaintext)
    (hne : plaintext ≠ run.bytes) : run.Shortened cipher blob := by
  simp only [Cipher.decryptFile, bind_ok] at hok
  obtain ⟨info, hparse, hopen⟩ := hok
  have hlt := totalChunks_lt hparse
  have hflatten : run.chunks.flatten = run.bytes := plainChunks_flatten hrun.positive
  have hsome : 0 < run.chunks.length :=
    List.length_pos_iff.mpr (plainChunks_ne_nil run.size run.bytes)
  cases hcounted : info.totalChunks with
  | zero =>
    rw [hcounted] at hopen
    cases hopen
    exact ⟨Ne.symm hne, info, hparse, hcounted ▸ hsome, .inl hcounted⟩
  | succ count =>
    rw [hcounted] at hopen hlt
    obtain ⟨hkey, hle, hplain, _, hseal⟩ :=
      Cipher.openChunks_ok hproduced (Nat.le_of_lt hcount) count 0 (by omega) hopen
    rw [Nat.zero_add] at hle
    rw [List.drop_zero] at hplain hseal
    have hfewer : count + 1 < run.chunks.length := by
      refine Nat.lt_of_le_of_ne hle fun heq => hne ?_
      rw [hplain, heq, List.take_length, hflatten]
    have hbytes : run.bytes ≠ [] := by
      intro hnil
      have hone : run.chunks = [[]] := by
        rw [chunks, hnil]
        rfl
      rw [hone] at hfewer
      simp at hfewer
    obtain ⟨hbody, hsize⟩ := hseal (plainChunks_nonempty hrun.positive hbytes)
    refine ⟨hbytes, info, hparse, hcounted ▸ hfewer, .inr ⟨hkey, ?_, hcounted ▸ hbody⟩⟩
    rcases Nat.eq_zero_or_pos count with hzero | hpos
    · exact .inl (by omega)
    · -- the first of several chunks has the size of the header and of the encryption
      refine .inr ?_
      have hfull : Full run.size run.chunks := plainChunks_full hrun.positive
      cases hchunks : run.chunks with
      | nil => rw [hchunks] at hsome; exact absurd hsome (by simp)
      | cons first rest =>
        cases rest with
        | nil => rw [hchunks] at hfewer; simp at hfewer
        | cons next rest =>
          rw [hchunks] at hfull
          have hfirst := hsize hpos first (by rw [hchunks]; rfl)
          exact hfirst.symm.trans hfull.1

end Encryption

/-- The round trip and the integrity of the format hold where the chunks can be counted in the
header, and just for the files that are not shortened. -/
theorem roundTrips_iff (cipher : Cipher) (run : Encryption) (hrun : run.WellFormed)
    (hproduced : cipher.Produced (run.key cipher) run.chunks) (blob : Bytes) :
    run.RoundTrips cipher blob ↔
      run.chunks.length < 2 ^ 32 ∧ ¬ run.Shortened cipher blob := by
  constructor
  · rintro ⟨file, hfile, hopens, hothers⟩
    have hcount : run.chunks.length < 2 ^ 32 := by
      simp only [Cipher.encryptFile, bind_ok] at hfile
      obtain ⟨header, hheader, _⟩ := hfile
      exact ((buildHeader_isOk run.salt).mp ⟨header, hheader⟩).2
    refine ⟨hcount, fun hshort => ?_⟩
    obtain ⟨plaintext, hplain, hne⟩ := Encryption.decryptFile_of_shortened hrun hproduced hshort
    by_cases heq : blob = file
    · rw [heq, hopens, Except.ok.injEq] at hplain
      exact hne hplain.symm
    · exact hne (hothers heq plaintext hplain)
  · rintro ⟨hcount, hshort⟩
    obtain ⟨header, hfile, hlength, hparse⟩ :=
      @Encryption.encryptFile_ok run cipher hrun hcount
    refine ⟨_, hfile, Encryption.decryptFile_encryptFile hrun hproduced hlength hparse,
      fun _ plaintext hplain => ?_⟩
    by_contra hne
    exact hshort (Encryption.shortened_of_decryptFile hrun hproduced hcount hplain hne)

/-! ### Three bytes in two chunks -/

def threeByteNonce (index : Nat) : Bytes :=
  List.replicate 8 0 ++ (packU32 index).getD (List.replicate 4 0)

def threeByteChunks : List Bytes := [[1, 2], [3]]

/-- A cipher that verifies the two chunks under the empty key, and nothing else. -/
def threeByteCipher : Cipher where
  deriveKey _ _ := []
  chunkNonce _ index := threeByteNonce index
  encryptAndDigest _ _ plaintext := (plaintext, List.replicate 16 0)
  decryptAndVerify key nonce ciphertext tag :=
    if key = [] ∧ tag = List.replicate 16 0 ∧
        (nonce = threeByteNonce 0 ∧ ciphertext = [1, 2] ∨
          nonce = threeByteNonce 1 ∧ ciphertext = [3]) then some ciphertext
    else none
  nonce_length _ index := by
    unfold threeByteNonce
    cases hpack : packU32 index with
    | none => rfl
    | some bytes => simp [(unpackU32_packU32 hpack).2]
  tag_length _ _ _ := rfl
  ciphertext_length _ _ _ := rfl

theorem threeByteCipher_produced : threeByteCipher.Produced [] threeByteChunks where
  opens index chunk hchunk := by
    match index, hchunk with
    | 0, rfl => rfl
    | 1, rfl => rfl
  only other nonce ciphertext tag plaintext hplain := by
    change (if _ then _ else _) = _ at hplain
    split at hplain
    next hverified =>
      cases hplain
      obtain ⟨rfl, rfl, ⟨rfl, rfl⟩ | ⟨rfl, rfl⟩⟩ := hverified
      · exact ⟨0, [1, 2], rfl, rfl, rfl, rfl⟩
      · exact ⟨1, [3], rfl, rfl, rfl, rfl⟩
    · cases hplain
  distinct first second hfirst hsecond heq := by
    change threeByteNonce first = threeByteNonce second at heq
    have hwords := List.append_cancel_left heq
    cases hone : packU32 first with
    | none => rw [packU32, if_pos hfirst] at hone; cases hone
    | some word =>
      cases htwo : packU32 second with
      | none => rw [packU32, if_pos hsecond] at htwo; cases htwo
      | some other =>
        rw [hone, htwo] at hwords
        have hvalue := (unpackU32_packU32 hone).1
        rw [show word = other from hwords, (unpackU32_packU32 htwo).1] at hvalue
        exact hvalue.symm

def threeByteRun : Encryption where
  salt := List.replicate 32 7
  bytes := [1, 2, 3]
  ekey := [9]
  password := none
  chunkSize := some 2

theorem threeByteRun_wellFormed : threeByteRun.WellFormed where
  salt := rfl
  positive := by decide
  bounded := by decide

theorem roundTrips_threeBytes :
    threeByteRun.WellFormed ∧ threeByteCipher.Produced [] threeByteRun.chunks ∧
      threeByteRun.RoundTrips threeByteCipher [] := by
  refine ⟨threeByteRun_wellFormed, threeByteCipher_produced, ?_⟩
  refine (roundTrips_iff threeByteCipher threeByteRun threeByteRun_wellFormed
    threeByteCipher_produced []).mpr ⟨by decide, ?_⟩
  rintro ⟨_, info, hinfo, _⟩
  cases hinfo

def firstChunkOnly : Bytes :=
  magic ++ [0, 0, 0, 2] ++ List.replicate 32 7 ++ [0, 0, 0, 1] ++ List.replicate 20 0 ++
    threeByteCipher.encryptChunk [] 0 [1, 2]

theorem firstChunkOnly_opens :
    threeByteRun.WellFormed ∧ threeByteCipher.Produced [] threeByteRun.chunks ∧
      threeByteCipher.decryptFile firstChunkOnly [9] none = .ok [1, 2] ∧
      ¬ threeByteRun.RoundTrips threeByteCipher firstChunkOnly := by
  have hopens : threeByteCipher.decryptFile firstChunkOnly [9] none = .ok [1, 2] := rfl
  refine ⟨threeByteRun_wellFormed, threeByteCipher_produced, hopens, ?_⟩
  rintro ⟨file, hfile, hround, hothers⟩
  have hne : firstChunkOnly ≠ file := by
    intro heq
    rw [← heq] at hround
    exact absurd (hopens.symm.trans hround) (by decide)
  exact absurd (hothers hne [1, 2] hopens) (by decide)

end DjangoMojo.Crypto
