import Gittensory.GuardedRun
import Gittensory.JsValue
import Gittensory.KeyEncoding
import Gittensory.KeyedTable
import Gittensory.Utf8Text

/-!
Secrets at rest (`utils/crypto.ts`, `db/repositories.ts`). The provider key of a repository is
kept as ciphertext beside the nonce and the salt of its key, each as base64; a draft's token is
one text of three parts. What is stored comes back as it was put in, and the log of changes
tells which repositories have a key. Texts are well formed: half a surrogate pair, which the
encoder turns into the replacement letter, is no letter of a `String`.
-/
namespace Gittensory.SecretStore

open Base64 GuardedRun JsValue KeyEncoding Utf8Text
open CodeUnits (Units)
open TextPattern (Text)

/-! ## Ciphers -/

/-- Random bytes of a length. -/
abbrev RandomBytes (length : ℕ) := { bytes : List UInt8 // bytes.length = length }

/-- What the platform computes: keys from a secret and a salt, and a cipher whose own ciphertexts
open under the key and the nonce that they were made with. -/
structure WebCrypto where
  Key : Type
  pbkdf2 : String → List UInt8 → Key
  hkdf : String → List UInt8 → Key
  encrypt : Key → List UInt8 → List UInt8 → List UInt8
  decrypt : Key → List UInt8 → List UInt8 → Option (List UInt8)
  decrypt_encrypt : ∀ key (iv : RandomBytes 12) plain,
    decrypt key iv.1 (encrypt key iv.1 plain) = some plain
  /-- A tag of sixteen bytes goes with each ciphertext. -/
  encrypt_ne_nil : ∀ key (iv : RandomBytes 12) plain, encrypt key iv.1 plain ≠ []
  malformed : List UInt8 → String

inductive SecretError where
  | missingEncryptionSecret
  | invalidEncryptedPayload
  | thrown
  deriving DecidableEq

def SECRET_KDF_SALT_V1 : List UInt8 := textEncode "gittensory-secret-encryption-v1"

def SECRET_KEY_VERSION_CURRENT : ℕ := 2

structure EncryptedSecret where
  ciphertext : Units
  iv : Units
  salt : Option Units
  version : ℕ

section Envelopes

variable (crypto : WebCrypto)

def encryptSecret (plaintext keyMaterial : String) (version : ℕ) (salt : RandomBytes 16)
    (iv : RandomBytes 12) : Except SecretError EncryptedSecret :=
  if keyMaterial = "" then .error .missingEncryptionSecret
  else
    let saltBytes := if 2 ≤ version then salt.1 else SECRET_KDF_SALT_V1
    .ok
      { ciphertext := btoa (crypto.encrypt (crypto.pbkdf2 keyMaterial saltBytes) iv.1
          (textEncode plaintext))
        iv := btoa iv.1
        salt := if 2 ≤ version then some (btoa saltBytes) else none
        version := version }

/-- `salt ? base64ToBytes(salt) : SECRET_KDF_SALT_V1` -/
def saltBytesOf : Option Units → Option (List UInt8)
  | none => some SECRET_KDF_SALT_V1
  | some salt => if salt = [] then some SECRET_KDF_SALT_V1 else atob salt

def decryptSecret (ciphertext iv : Units) (keyMaterial : String) (salt : Option Units) :
    Except SecretError String :=
  if keyMaterial = "" then .error .missingEncryptionSecret
  else
    match saltBytesOf salt, atob iv, atob ciphertext with
    | some saltBytes, some iv, some ciphertext =>
        match crypto.decrypt (crypto.pbkdf2 keyMaterial saltBytes) iv ciphertext with
        | some plain => .ok (textDecode crypto.malformed plain)
        | none => .error .thrown
    | _, _, _ => .error .thrown

/-- What stands between the parts of a draft's token. -/
def partMark : ℕ := 46

/-- `base64url(salt).base64url(iv).base64url(ciphertext)` -/
def encryptDraftToken (secret plaintext : String) (salt : RandomBytes 16) (iv : RandomBytes 12) :
    Except SecretError Units :=
  if secret = "" then .error .missingEncryptionSecret
  else
    let ciphertext := crypto.encrypt (crypto.hkdf secret salt.1) iv.1 (textEncode plaintext)
    .ok (base64UrlEncode salt.1 ++ partMark :: (base64UrlEncode iv.1 ++
      partMark :: base64UrlEncode ciphertext))

def decryptDraftToken (secret : String) (encrypted : Units) : Except SecretError String :=
  if secret = "" then .error .missingEncryptionSecret
  else
    match encrypted.splitOn partMark with
    | [salt, iv, ciphertext] =>
        if salt = [] ∨ iv = [] ∨ ciphertext = [] then .error .invalidEncryptedPayload
        else
          match base64UrlDecode salt, base64UrlDecode iv, base64UrlDecode ciphertext with
          | some salt, some iv, some ciphertext =>
              match crypto.decrypt (crypto.hkdf secret salt) iv ciphertext with
              | some plain => .ok (textDecode crypto.malformed plain)
              | none => .error .invalidEncryptedPayload
          | _, _, _ => .error .invalidEncryptedPayload
    | _ => .error .invalidEncryptedPayload

variable {crypto}

theorem atob_btoa (bytes : List UInt8) : atob (btoa bytes) = some bytes := by
  have h := atob_letters bytes
  rwa [List.length_map] at h

theorem btoa_ne_nil {bytes : List UInt8} (h : bytes ≠ []) : btoa bytes ≠ [] := by
  intro hnil
  have hread := atob_btoa bytes
  rw [hnil] at hread
  have hempty : atob [] = some [] := by decide
  rw [hempty] at hread
  exact h (Option.some.inj hread).symm

theorem decryptSecret_encryptSecret {plaintext keyMaterial : String} (hsecret : keyMaterial ≠ "")
    (version : ℕ) (salt : RandomBytes 16) (iv : RandomBytes 12) :
    ∃ sealed, encryptSecret crypto plaintext keyMaterial version salt iv = .ok sealed ∧
      decryptSecret crypto sealed.ciphertext sealed.iv keyMaterial sealed.salt =
        .ok (dropMark plaintext) := by
  have hsalt : salt.1 ≠ [] := List.ne_nil_of_length_pos (by rw [salt.2]; decide)
  refine ⟨_, if_neg hsecret, ?_⟩
  rw [decryptSecret, if_neg hsecret]
  by_cases hversion : 2 ≤ version
  · simp [saltBytesOf, hversion, btoa_ne_nil hsalt, atob_btoa, crypto.decrypt_encrypt,
      textDecode_textEncode]
  · simp [saltBytesOf, hversion, atob_btoa, crypto.decrypt_encrypt, textDecode_textEncode]

theorem partMark_not_mem (bytes : List UInt8) : partMark ∉ base64UrlEncode bytes := by
  rw [base64UrlEncode_eq]
  intro hmem
  obtain ⟨unit, hunit, heq⟩ := List.mem_map.mp hmem
  have hletter := (unpadded_sextets bytes).letters unit hunit
  unfold IsLetter at hletter
  unfold urlUnit partMark at heq
  split_ifs at heq <;> omega

theorem base64UrlEncode_ne_nil {bytes : List UInt8} (h : bytes ≠ []) :
    base64UrlEncode bytes ≠ [] := by
  intro hnil
  have hread := base64UrlDecode_encode bytes
  rw [hnil] at hread
  have hempty : base64UrlDecode [] = some [] := by decide
  rw [hempty] at hread
  exact h (Option.some.inj hread).symm

theorem splitOn_parts {first second third : Units} (h : partMark ∉ first) (h' : partMark ∉ second)
    (h'' : partMark ∉ third) :
    (first ++ partMark :: (second ++ partMark :: third)).splitOn partMark =
      [first, second, third] := by
  have hjoin : first ++ partMark :: (second ++ partMark :: third) =
      [partMark].intercalate [first, second, third] := by
    simp [List.intercalate, List.intersperse]
  rw [hjoin]
  refine List.splitOn_intercalate _ ?_ (List.cons_ne_nil _ _)
  simp [h, h', h'']

/-- Whatever salt and nonce are drawn, a draft's token of well-formed text comes back as it was, but
for a byte order mark in front of it. -/
theorem decryptDraftToken_encryptDraftToken (crypto : WebCrypto) {secret : String}
    (hsecret : secret ≠ "") (plaintext : String) (salt : RandomBytes 16) (iv : RandomBytes 12) :
    ∃ encrypted, encryptDraftToken crypto secret plaintext salt iv = .ok encrypted ∧
      decryptDraftToken crypto secret encrypted = .ok (dropMark plaintext) := by
  have hsalt : salt.1 ≠ [] := List.ne_nil_of_length_pos (by rw [salt.2]; decide)
  have hiv : iv.1 ≠ [] := List.ne_nil_of_length_pos (by rw [iv.2]; decide)
  refine ⟨_, if_neg hsecret, ?_⟩
  rw [decryptDraftToken, if_neg hsecret, splitOn_parts (partMark_not_mem _) (partMark_not_mem _)
    (partMark_not_mem _)]
  simp [base64UrlEncode_ne_nil, hsalt, hiv, crypto.encrypt_ne_nil, base64UrlDecode_encode,
    crypto.decrypt_encrypt, textDecode_textEncode]

end Envelopes

/-- The token of the example under AES-256-GCM, with its tag. -/
def sampleSealed : List UInt8 :=
  [53, 147, 9, 5, 252, 238, 175, 64, 14, 96, 76, 79, 109, 170, 118, 73, 181, 182, 124, 145, 197]

def sampleSalt : RandomBytes 16 := ⟨[0, 1, 2, 3, 4, 5, 6, 7, 8, 9, 10, 11, 12, 13, 14, 15], rfl⟩

def sampleNonce : RandomBytes 12 := ⟨[0, 1, 2, 3, 4, 5, 6, 7, 8, 9, 10, 11], rfl⟩

/-- The platform on the one token of the example; elsewhere a tag of zeros is put behind. -/
def sampleCrypto : WebCrypto where
  Key := Bool × String × List UInt8
  pbkdf2 secret salt := (false, secret, salt)
  hkdf secret salt := (true, secret, salt)
  encrypt key iv plain :=
    if key = (true, "s3cret", sampleSalt.1) ∧ iv = sampleNonce.1 ∧ plain = textEncode "gho_1" then
      sampleSealed
    else plain ++ List.replicate 16 0
  decrypt key iv sealed :=
    if key = (true, "s3cret", sampleSalt.1) ∧ iv = sampleNonce.1 ∧ sealed = sampleSealed then
      some (textEncode "gho_1")
    else some (sealed.take (sealed.length - 16))
  decrypt_encrypt := by
    intro key iv plain
    by_cases hsample : key = (true, "s3cret", sampleSalt.1) ∧ iv = sampleNonce.1 ∧
        plain = textEncode "gho_1"
    · simp [hsample]
    · have hother : plain ++ List.replicate 16 0 ≠ sampleSealed := fun h => by
        have hlast := congrArg List.getLast? h
        have hzero : (List.replicate 16 (0 : UInt8)).getLast? = some 0 := by decide
        rw [List.getLast?_append, hzero, Option.some_or] at hlast
        exact absurd hlast (by decide)
      rw [if_neg hsample, if_neg fun h => hother h.2.2]
      simp
  encrypt_ne_nil := by
    intro key iv plain
    split_ifs
    · exact List.cons_ne_nil _ _
    · simp
  malformed _ := "\uFFFD"

theorem sample_comes_back :
    ∃ encrypted, encryptDraftToken sampleCrypto "s3cret" "gho_1" sampleSalt sampleNonce =
        .ok encrypted ∧
      decryptDraftToken sampleCrypto "s3cret" encrypted = .ok (dropMark "gho_1") :=
  decryptDraftToken_encryptDraftToken sampleCrypto (by decide) "gho_1" sampleSalt sampleNonce

/-! ## Provider keys -/

inductive AiKeyProvider where
  | anthropic
  | openai
  deriving DecidableEq, Repr

inductive AiKeyAction where
  | set
  | replace
  | delete
  deriving DecidableEq, Repr

/-- The row of a repository. -/
structure AiKeyRow where
  repoFullName : String
  provider : AiKeyProvider
  ciphertext : Units
  iv : Units
  salt : Option Units
  keyVersion : ℕ
  model : Option String
  last4 : String
  createdBy : Option String
  updatedAt : String

/-- What `recordAiKeyChange` notes. -/
structure AiKeyChange where
  repoFullName : String
  action : AiKeyAction
  provider : AiKeyProvider
  last4 : String
  actor : Option String

structure Store where
  rows : List AiKeyRow
  changes : List AiKeyChange

def emptyStore : Store := ⟨[], []⟩

structure AiKeyInput where
  repoFullName : String
  provider : AiKeyProvider
  key : String
  model : Option String
  createdBy : Option String

structure DecryptedRepositoryAiKey where
  provider : AiKeyProvider
  key : String
  model : Option String
  deriving DecidableEq

/-- `text.slice(-4)` -/
def last4Of (text : String) : String := String.ofList (takeUnits 4 text.toList.reverse).reverse

/-- `input.model?.trim() ? input.model.trim() : null` -/
def modelOf (input : AiKeyInput) : Option String := present (input.model.map trim)

def rowOf (store : Store) (fullName : String) : Option AiKeyRow :=
  KeyedTable.lookup AiKeyRow.repoFullName store.rows fullName

section Keys

variable (crypto : WebCrypto)

/-- A call without a secret throws and changes nothing. -/
def upsertRepositoryAiKey (secret : String) (input : AiKeyInput) (salt : RandomBytes 16)
    (iv : RandomBytes 12) (updatedAt : String) (store : Store) : Store :=
  let trimmedKey := trim input.key
  match encryptSecret crypto trimmedKey secret SECRET_KEY_VERSION_CURRENT salt iv with
  | .error _ => store
  | .ok sealed =>
      { rows := KeyedTable.upsert AiKeyRow.repoFullName store.rows
          ⟨input.repoFullName, input.provider, sealed.ciphertext, sealed.iv, sealed.salt,
            sealed.version, modelOf input, last4Of trimmedKey, input.createdBy, updatedAt⟩
        changes := store.changes ++ [⟨input.repoFullName,
          if (rowOf store input.repoFullName).isSome then .replace else .set, input.provider,
          last4Of trimmedKey, input.createdBy⟩] }

def deleteRepositoryAiKey (fullName : String) (actor : Option String) (store : Store) : Store where
  rows := store.rows.filter fun row => row.repoFullName ≠ fullName
  changes :=
    match rowOf store fullName with
    | some existing =>
        store.changes ++ [⟨fullName, .delete, existing.provider, existing.last4, actor⟩]
    | none => store.changes

def getDecryptedRepositoryAiKey (secret : String) (fullName : String) (store : Store) :
    Option DecryptedRepositoryAiKey :=
  if secret = "" then none
  else
    match rowOf store fullName with
    | none => none
    | some row =>
        match decryptSecret crypto row.ciphertext row.iv secret row.salt with
        | .ok key => some ⟨row.provider, key, row.model⟩
        | .error _ => none

inductive Event where
  | upsert (secret : String) (input : AiKeyInput) (salt : RandomBytes 16) (iv : RandomBytes 12)
      (updatedAt : String)
  | delete (fullName : String) (actor : Option String)

def step (store : Store) : Event → Store
  | .upsert secret input salt iv updatedAt =>
      upsertRepositoryAiKey crypto secret input salt iv updatedAt store
  | .delete fullName actor => deleteRepositoryAiKey fullName actor store

/-- What an event says last about a repository: nothing, that it has no key, or the key and the
secret it was put under. -/
def Event.tells (fullName : String) : Event → Option (Option (String × AiKeyInput))
  | .upsert secret input _ _ _ =>
      if secret ≠ "" ∧ input.repoFullName = fullName then some (some (secret, input)) else none
  | .delete name _ => if name = fullName then some none else none

/-- The last key put for a repository and not deleted. -/
def lastPut (events : List Event) (fullName : String) : Option (String × AiKeyInput) :=
  ((events.filterMap fun event => event.tells fullName).getLast?).join

/-- The log of a repository from a time on, read as whether it has a key: a key is set where there
is none, replaced and deleted where there is one. -/
def follow : Bool → List AiKeyAction → Option Bool
  | hasKey, [] => some hasKey
  | false, .set :: rest => follow true rest
  | true, .replace :: rest => follow true rest
  | true, .delete :: rest => follow false rest
  | _, _ => none

def actionsOf (store : Store) (fullName : String) : List AiKeyAction :=
  (store.changes.filter fun change => change.repoFullName = fullName).map AiKeyChange.action

variable {crypto}

theorem head?_trimText {text : Text} {c : Char} (h : (trimText text).head? = some c) :
    spaceSet.accepts c = false := by
  have hprefix : trimText text <+: text.dropWhile spaceSet.accepts := by
    rw [trimText]
    have hsuffix := List.dropWhile_suffix (l := (text.dropWhile spaceSet.accepts).reverse)
      spaceSet.accepts
    simpa using List.reverse_prefix.mpr hsuffix
  obtain ⟨rest, hrest⟩ := hprefix
  have hhead : (text.dropWhile spaceSet.accepts).head? = some c := by
    rw [← hrest, List.head?_append, h, Option.some_or]
  have hnot := List.head?_dropWhile_not spaceSet.accepts text
  rw [hhead] at hnot
  simpa using hnot

/-- A trimmed key has no byte order mark in front, which is a space to `trim`. -/
theorem dropMark_trim (key : String) : dropMark (trim key) = trim key := by
  rw [dropMark_eq_iff]
  intro hhead
  rw [trim, String.toList_ofList] at hhead
  exact absurd (head?_trimText hhead) (by decide)

theorem lastPut_append (events : List Event) (event : Event) (fullName : String) :
    lastPut (events ++ [event]) fullName =
      (event.tells fullName).getD (lastPut events fullName) := by
  rw [lastPut, List.filterMap_append, List.getLast?_append]
  rcases htells : event.tells fullName with _ | said
  · simp [htells, lastPut]
  · simp [htells]

theorem rowOf_delete (store : Store) (name : String) (actor : Option String) (fullName : String) :
    rowOf (deleteRepositoryAiKey name actor store) fullName =
      if name = fullName then none else rowOf store fullName := by
  unfold rowOf deleteRepositoryAiKey
  split_ifs with hname
  · subst hname
    rw [KeyedTable.lookup, List.find?_eq_none]
    intro row hrow
    simpa using (List.mem_filter.mp hrow).2
  · apply KeyedTable.lookup_filter
    intro row _ hkey
    exact decide_eq_true fun heq => hname (heq.symm.trans hkey)

theorem follow_append (hasKey : Bool) (actions more : List AiKeyAction) :
    follow hasKey (actions ++ more) =
      (follow hasKey actions).bind fun hasKey => follow hasKey more := by
  induction actions generalizing hasKey with
  | nil => rfl
  | cons action rest ih => cases hasKey <;> cases action <;> simp [follow, ih]

/-- What holds of a repository after the events: its key opens under the secret it was put under,
and its log tells whether it has one. -/
structure Kept (crypto : WebCrypto) (events : List Event) (fullName : String) (store : Store) :
    Prop where
  row : match lastPut events fullName with
    | none => rowOf store fullName = none
    | some (secret, input) => secret ≠ "" ∧ ∃ row, rowOf store fullName = some row ∧
        row.provider = input.provider ∧ row.model = modelOf input ∧
        decryptSecret crypto row.ciphertext row.iv secret row.salt = .ok (trim input.key)
  log : follow false (actionsOf store fullName) = some (rowOf store fullName).isSome

theorem actionsOf_append (rows : List AiKeyRow) (changes : List AiKeyChange) (change : AiKeyChange)
    (fullName : String) :
    actionsOf ⟨rows, changes ++ [change]⟩ fullName = (changes.filter fun change =>
      change.repoFullName = fullName).map AiKeyChange.action ++
        if change.repoFullName = fullName then [change.action] else [] := by
  rw [actionsOf, List.filter_append, List.map_append, List.filter_singleton]
  split_ifs <;> simp_all

theorem kept_upsert {events : List Event} {fullName : String} {store : Store}
    (h : Kept crypto events fullName store) (secret : String) (input : AiKeyInput)
    (salt : RandomBytes 16) (iv : RandomBytes 12) (updatedAt : String) :
    Kept crypto (events ++ [.upsert secret input salt iv updatedAt]) fullName
      (upsertRepositoryAiKey crypto secret input salt iv updatedAt store) := by
  by_cases hsecret : secret = ""
  · have hsame : upsertRepositoryAiKey crypto secret input salt iv updatedAt store = store := by
      simp [upsertRepositoryAiKey, encryptSecret, hsecret]
    rw [hsame]
    refine ⟨?_, h.log⟩
    rw [lastPut_append, Event.tells, if_neg fun hput => hput.1 hsecret]
    exact h.row
  · obtain ⟨sealed, hsealed, hopens⟩ := @decryptSecret_encryptSecret crypto (trim input.key) secret
      hsecret SECRET_KEY_VERSION_CURRENT salt iv
    rw [dropMark_trim] at hopens
    have hrow : ∀ name, rowOf (upsertRepositoryAiKey crypto secret input salt iv updatedAt store)
        name = if input.repoFullName = name then
          some ⟨input.repoFullName, input.provider, sealed.ciphertext, sealed.iv, sealed.salt,
            sealed.version, modelOf input, last4Of (trim input.key), input.createdBy, updatedAt⟩
        else rowOf store name := by
      intro name
      simp only [upsertRepositoryAiKey, hsealed, rowOf, KeyedTable.lookup_upsert]
    have hchanges : (upsertRepositoryAiKey crypto secret input salt iv updatedAt store).changes =
        store.changes ++ [⟨input.repoFullName,
          if (rowOf store input.repoFullName).isSome then .replace else .set, input.provider,
          last4Of (trim input.key), input.createdBy⟩] := by
      simp only [upsertRepositoryAiKey, hsealed]
    refine ⟨?_, ?_⟩
    · rw [lastPut_append, Event.tells, hrow]
      by_cases hname : input.repoFullName = fullName
      · rw [if_pos ⟨hsecret, hname⟩, if_pos hname]
        exact ⟨hsecret, _, rfl, rfl, rfl, hopens⟩
      · rw [if_neg fun hput => hname hput.2, if_neg hname]
        exact h.row
    · have hactions := actionsOf_append
        (upsertRepositoryAiKey crypto secret input salt iv updatedAt store).rows store.changes
        ⟨input.repoFullName, if (rowOf store input.repoFullName).isSome then .replace else .set,
          input.provider, last4Of (trim input.key), input.createdBy⟩ fullName
      rw [← hchanges] at hactions
      have hlog : follow false ((store.changes.filter fun change =>
          change.repoFullName = fullName).map AiKeyChange.action) =
            some (rowOf store fullName).isSome := h.log
      rw [show actionsOf (upsertRepositoryAiKey crypto secret input salt iv updatedAt store)
        fullName = _ from hactions, follow_append, hlog, Option.bind_some, hrow]
      by_cases hname : input.repoFullName = fullName
      · rw [if_pos hname, if_pos hname, hname]
        rcases rowOf store fullName with _ | row <;> rfl
      · rw [if_neg hname, if_neg hname]
        rcases rowOf store fullName with _ | row <;> rfl

theorem kept_delete {events : List Event} {fullName : String} {store : Store}
    (h : Kept crypto events fullName store) (name : String) (actor : Option String) :
    Kept crypto (events ++ [.delete name actor]) fullName
      (deleteRepositoryAiKey name actor store) := by
  refine ⟨?_, ?_⟩
  · rw [lastPut_append, Event.tells, rowOf_delete]
    split_ifs
    · rfl
    · exact h.row
  · have hlog := h.log
    rw [rowOf_delete]
    rcases hrow : rowOf store name with _ | existing
    · have hsame : actionsOf (deleteRepositoryAiKey name actor store) fullName =
          actionsOf store fullName := by
        rw [actionsOf, deleteRepositoryAiKey, hrow, actionsOf]
      rw [hsame, hlog]
      split_ifs with hname
      · rw [← hname, hrow]
      · rfl
    · have hactions := actionsOf_append (deleteRepositoryAiKey name actor store).rows store.changes
        ⟨name, .delete, existing.provider, existing.last4, actor⟩ fullName
      have hchanges : (deleteRepositoryAiKey name actor store).changes = store.changes ++
          [⟨name, .delete, existing.provider, existing.last4, actor⟩] := by
        rw [deleteRepositoryAiKey, hrow]
      rw [← hchanges] at hactions
      rw [show actionsOf (deleteRepositoryAiKey name actor store) fullName = _ from hactions,
        follow_append]
      change (follow false (actionsOf store fullName)).bind _ = _
      rw [hlog, Option.bind_some]
      by_cases hname : name = fullName
      · rw [if_pos hname, if_pos hname, ← hname, hrow]
        rfl
      · rw [if_neg hname, if_neg hname]
        rcases rowOf store fullName with _ | row <;> rfl

theorem kept_run (events : List Event) (fullName : String) :
    Kept crypto events fullName (run (step crypto) emptyStore events) := by
  induction events using List.reverseRecOn with
  | nil => exact ⟨rfl, rfl⟩
  | append_singleton events event ih =>
    rw [run_append]
    cases event with
    | upsert secret input salt iv updatedAt => exact kept_upsert ih secret input salt iv updatedAt
    | delete name actor => exact kept_delete ih name actor

/-- After any changes to the keys of any repositories, under secrets that come and go: a
repository's key, a well-formed text, is read back, trimmed and with its provider and model, under
the secret it was last put under; where it was never put or was deleted last nothing is read; and
the log of the repository is a run of sets, replacements and deletions that tells whether it has a
key. -/
theorem getDecryptedRepositoryAiKey_run (crypto : WebCrypto) (events : List Event)
    (fullName : String) :
    (match lastPut events fullName with
      | none => ∀ secret, getDecryptedRepositoryAiKey crypto secret fullName
          (run (step crypto) emptyStore events) = none
      | some (secret, input) => getDecryptedRepositoryAiKey crypto secret fullName
          (run (step crypto) emptyStore events) =
            some ⟨input.provider, trim input.key, modelOf input⟩) ∧
      follow false (actionsOf (run (step crypto) emptyStore events) fullName) =
        some (lastPut events fullName).isSome := by
  obtain ⟨hrow, hlog⟩ := @kept_run crypto events fullName
  rcases hput : lastPut events fullName with _ | ⟨secret, input⟩
  · rw [hput] at hrow
    refine ⟨fun secret => ?_, ?_⟩
    · simp only at hrow
      simp [getDecryptedRepositoryAiKey, hrow]
    · rw [hlog, hrow]
      rfl
  · rw [hput] at hrow
    obtain ⟨hsecret, row, hfound, hprovider, hmodel, hopens⟩ := hrow
    refine ⟨?_, ?_⟩
    · simp only [getDecryptedRepositoryAiKey, if_neg hsecret, hfound, hopens, hprovider, hmodel]
    · rw [hlog, hfound]
      rfl

end Keys

end Gittensory.SecretStore
