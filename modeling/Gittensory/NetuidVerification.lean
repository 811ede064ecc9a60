import Gittensory.JsCoercion

/-!
The lookup of a subnet in the public registry (`content-lane/netuid-verification.ts`,
`fetchSubnetRecord`). The answer is arbitrary JSON in one of several envelopes. A list is taken
at its first element without a look at it, and an object passes with a known field or an echo in
one of two places, whatever netuid stands in the other.
-/
namespace Gittensory.NetuidVerification

open CodeUnits JsonRecord JsCoercion
open JsValue (JsNumber)

def slash : ℕ := 47

/-! ## The requests -/

section Requests

structure Response where
  status : ℕ
  /-- What the body is parsed to, if it is JSON. -/
  json : Option JsonValue

def Response.ok (response : Response) : Bool := 200 ≤ response.status && response.status ≤ 299

def DEFAULT_RETRIES : ℕ := 2

def RETRYABLE_STATUS : List ℕ := [408, 425, 429, 500, 502, 503, 504]

/-- The attempts from a given one on; a request that throws gives no response. -/
def fetchFrom (request : ℕ → Option Response) : ℕ → ℕ → Option Response
  | 0, attempt => request attempt
  | retries + 1, attempt =>
      match request attempt with
      | some response =>
          if response.status ∈ RETRYABLE_STATUS then fetchFrom request retries (attempt + 1)
          else some response
      | none => fetchFrom request retries (attempt + 1)

def fetchWithRetry (request : ℕ → Option Response) : Option Response :=
  fetchFrom request DEFAULT_RETRIES 0

def DEFAULT_PUBLIC_API_BASE : Units := units "https://api.metagraph.sh/api/v1"

/-- The secrets of the environment that are strings. -/
abbrev NetuidVerificationEnv := String → Option Units

def readSecret (env : NetuidVerificationEnv) (name : String) : Units := (env name).getD []

/-- `text.replace(/\/+$/, "")` -/
def dropTrailingSlashes (text : Units) : Units := (text.reverse.dropWhile (· = slash)).reverse

def publicBase (env : NetuidVerificationEnv) : Units :=
  let secret := readSecret env "METAGRAPHED_PUBLIC_API_BASE"
  dropTrailingSlashes (if secret = [] then DEFAULT_PUBLIC_API_BASE else secret)

def subnetUrl (env : NetuidVerificationEnv) (netuid : JsNumber) : Units :=
  publicBase env ++ units "/subnets/" ++ units netuid.toText

end Requests

/-! ## The answer -/

section Answer

inductive SubnetStatus where
  | exists
  | missing
  | error
  deriving DecidableEq, Repr

structure SubnetRecord where
  status : SubnetStatus
  record : Option JsonValue

def missingRecord : SubnetRecord := ⟨.missing, none⟩

def errorRecord : SubnetRecord := ⟨.error, none⟩

def hasKey (fields : Record) (key : String) : Bool := (fields.lookup key).isSome

/-- No object, an object with an error, or one that says it failed. -/
def isEmptyEnvelope : JsonValue → Bool
  | .object fields =>
      hasKey fields "error" ||
        match fields.lookup "success" with
        | some (.bool false) => true
        | _ => false
  | .array _ => false
  | _ => true

/-- `payload.data ?? payload` -/
def dataOf : JsonValue → JsonValue
  | .object fields =>
      match fields.lookup "data" with
      | none | some .null => .object fields
      | some data => data
  | payload => payload

def recordFields : List String :=
  ["name", "owner", "surfaces", "candidates", "emission", "registered_at", "tempo"]

def hasRecordFields (fields : Record) : Bool := recordFields.any (hasKey fields)

def subnetOf (data : Record) : Option Record :=
  match data.lookup "subnet" with
  | some (.object fields) => some fields
  | _ => none

/-- `left === right` -/
def strictEqual (left right : JsNumber) : Bool := left ≠ .nan && left = right

/-- `Number(fields.netuid) === netuid`, or nothing when the conversion throws. -/
def echoes (netuid : JsNumber) (fields : Record) : Option Bool :=
  (numberOf (fields.lookup "netuid")).map fun number => strictEqual number netuid

/-- The netuid stands in the data, or else in its subnet. -/
def echoesNetuid (netuid : JsNumber) (data : Record) : Option Bool := do
  if ← echoes netuid data then return true
  match subnetOf data with
  | some fields => echoes netuid fields
  | none => return false

/-- The netuid is echoed, or a field that records have is there. -/
def isRecord (netuid : JsNumber) (data : Record) : Option Bool := do
  let echoed ← echoesNetuid netuid data
  return echoed || hasRecordFields data || (subnetOf data).any hasRecordFields

def readData (netuid : JsNumber) : JsonValue → SubnetRecord
  | .array items =>
      match items with
      | first :: _ =>
          match first with
          | .null => ⟨.exists, none⟩
          | value => ⟨.exists, some value⟩
      | [] => missingRecord
  | .object data =>
      if hasKey data "error" then missingRecord
      else
        match isRecord netuid data with
        | none => errorRecord
        | some false => missingRecord
        | some true => ⟨.exists, some (.object ((subnetOf data).getD data))⟩
  | _ => missingRecord

def readResponse (netuid : JsNumber) (response : Response) : SubnetRecord :=
  if response.status = 404 then missingRecord
  else if response.ok = false then errorRecord
  else
    match response.json with
    | none => missingRecord
    | some payload =>
        if isEmptyEnvelope payload then missingRecord else readData netuid (dataOf payload)

/-- `fetchImpl` by the URL and the attempt. -/
def fetchSubnetRecord (env : NetuidVerificationEnv) (netuid : JsNumber)
    (fetchImpl : Units → ℕ → Option Response) : SubnetRecord :=
  match fetchWithRetry (fetchImpl (subnetUrl env netuid)) with
  | none => errorRecord
  | some response => readResponse netuid response

end Answer

/-! ## Records of the right subnet -/

section Identity

/-- The number that a field states: a number, or text that spells one. -/
def denotes : JsonValue → Option JsNumber
  | .number value => some value
  | .string text =>
      if trim text = [] then none
      else
        match stringToNumber text with
        | .nan => none
        | value => some value
  | _ => none

/-- A netuid is there and denotes another number. -/
def CarriesOther (netuid : JsNumber) (fields : Record) : Prop :=
  ∃ value number, fields.lookup "netuid" = some value ∧ denotes value = some number ∧
    strictEqual number netuid = false

/-- The JSON that the last response brings. -/
def answered (env : NetuidVerificationEnv) (netuid : JsNumber)
    (fetchImpl : Units → ℕ → Option Response) : Option JsonValue :=
  (fetchWithRetry (fetchImpl (subnetUrl env netuid))).bind Response.json

/-- A subnet that exists comes with an object that, like the data around it, carries no netuid of
another subnet. -/
def Identified (netuid : JsNumber) (payload : Option JsonValue) (result : SubnetRecord) : Prop :=
  result.status = .exists →
    (∃ fields, result.record = some (.object fields) ∧ ¬CarriesOther netuid fields) ∧
      ∀ data, payload.map dataOf = some (.object data) → ¬CarriesOther netuid data

/-- What the registry may say about another subnet without being noticed: a list whose first
element is no object or has another netuid, or data that passes for a record and has another
netuid in one of its two places. -/
inductive Misfit (netuid : JsNumber) : JsonValue → Prop
  | first {first : JsonValue} {rest : List JsonValue} :
      (∀ fields, first = .object fields → CarriesOther netuid fields) →
      Misfit netuid (.array (first :: rest))
  | record {data : Record} : hasKey data "error" = false → isRecord netuid data = some true →
      (CarriesOther netuid data ∨ ∃ fields, subnetOf data = some fields ∧
        CarriesOther netuid fields) → Misfit netuid (.object data)

/-- An answer that is read and does not fit. -/
structure Misanswered (netuid : JsNumber) (response : Response) (payload : JsonValue) : Prop where
  ok : response.ok = true
  json : response.json = some payload
  usable : isEmptyEnvelope payload = false
  misfit : Misfit netuid (dataOf payload)

theorem not_exists_missing {P : Prop} (h : missingRecord.status = .exists) : P :=
  absurd h (by decide)

theorem not_exists_error {P : Prop} (h : errorRecord.status = .exists) : P :=
  absurd h (by decide)

/-- Data that is taken for a subnet fits exactly when it is no misfit. -/
theorem readData_identified_iff (netuid : JsNumber) (data : JsonValue) :
    ((readData netuid data).status = .exists →
      (∃ fields, (readData netuid data).record = some (.object fields) ∧
        ¬CarriesOther netuid fields) ∧
      ∀ fields, data = .object fields → ¬CarriesOther netuid fields) ↔ ¬Misfit netuid data := by
  have hmissing : ∀ {P : Prop}, ¬Misfit netuid data → readData netuid data = missingRecord →
      (((readData netuid data).status = .exists → P) ↔ ¬Misfit netuid data) :=
    fun hfit hread => iff_of_true (fun h => not_exists_missing (hread ▸ h)) hfit
  cases data with
  | array items =>
    cases items with
    | nil => exact hmissing (fun h => by cases h) rfl
    | cons first rest =>
      have hmisfit : Misfit netuid (.array (first :: rest)) ↔
          ∀ fields, first = .object fields → CarriesOther netuid fields :=
        ⟨fun h => by cases h with | first hfirst => exact hfirst, Misfit.first⟩
      have hexists : (readData netuid (.array (first :: rest))).status = .exists := by
        cases first <;> rfl
      have hrecord : ∀ fields, (readData netuid (.array (first :: rest))).record =
          some (.object fields) ↔ first = .object fields := fun fields => by
        cases first <;> simp [readData]
      rw [hmisfit, not_forall]
      simp only [Classical.not_imp, hrecord]
      constructor
      · exact fun h => by
          obtain ⟨⟨fields, hfirst, hother⟩, -⟩ := h hexists
          exact ⟨fields, hfirst, hother⟩
      · rintro ⟨fields, hfirst, hother⟩ -
        exact ⟨⟨fields, hfirst, hother⟩, fun data hdata => by cases hdata⟩
  | object data =>
    cases herror : hasKey data "error" with
    | true =>
      refine hmissing (fun h => ?_) (if_pos herror)
      cases h with
      | record hnone => exact absurd (hnone.symm.trans herror) Bool.false_ne_true
    | false =>
      have hread : readData netuid (.object data) = match isRecord netuid data with
          | none => errorRecord
          | some false => missingRecord
          | some true => ⟨.exists, some (.object ((subnetOf data).getD data))⟩ :=
        if_neg (by rw [herror]; exact Bool.false_ne_true)
      have hrejected : isRecord netuid data ≠ some true → ¬Misfit netuid (.object data) :=
        fun hnot h => by
          cases h with
          | record _ haccepted => exact hnot haccepted
      rw [hread]
      cases haccepted : isRecord netuid data with
      | none =>
        exact iff_of_true (fun h => not_exists_error h)
          (hrejected (by rw [haccepted]; exact fun h => by cases h))
      | some accepted =>
        cases accepted with
        | false =>
          exact iff_of_true (fun h => not_exists_missing h)
            (hrejected (by rw [haccepted]; exact fun h => by cases h))
        | true =>
          have hmisfit : Misfit netuid (.object data) ↔ CarriesOther netuid data ∨
              ∃ fields, subnetOf data = some fields ∧ CarriesOther netuid fields :=
            ⟨fun h => by cases h with | record _ _ hother => exact hother,
              Misfit.record herror haccepted⟩
          rw [hmisfit, not_or]
          constructor
          · intro h
            obtain ⟨⟨fields, hrecord, hfits⟩, hdata⟩ := h rfl
            refine ⟨hdata data rfl, fun ⟨subnet, hsubnet, hother⟩ => hfits ?_⟩
            have hfields : (subnetOf data).getD data = fields :=
              JsonValue.object.inj (Option.some.inj hrecord)
            rw [hsubnet, Option.getD_some] at hfields
            exact hfields ▸ hother
          · rintro ⟨hdata, hsubnet⟩ -
            refine ⟨⟨_, rfl, ?_⟩, fun fields hfields => JsonValue.object.inj hfields ▸ hdata⟩
            cases hfound : subnetOf data with
            | none => exact hdata
            | some subnet => exact fun hother => hsubnet ⟨subnet, hfound, hother⟩
  | null => exact hmissing (fun h => by cases h) rfl
  | bool value => exact hmissing (fun h => by cases h) rfl
  | number value => exact hmissing (fun h => by cases h) rfl
  | string text => exact hmissing (fun h => by cases h) rfl

/-- A response brings a record that fits exactly when it is no misfit that is read. -/
theorem readResponse_identified_iff (netuid : JsNumber) (response : Response) :
    Identified netuid response.json (readResponse netuid response) ↔
      ∀ payload, ¬Misanswered netuid response payload := by
  unfold Identified readResponse
  by_cases hok : response.ok = true
  · have hfound : ¬response.status = 404 := fun heq => by
      rw [Response.ok, heq] at hok
      exact absurd hok (by decide)
    have hbad : ¬response.ok = false := by
      rw [hok]
      exact Bool.noConfusion
    rw [if_neg hfound, if_neg hbad]
    cases hjson : response.json with
    | none =>
      refine iff_of_true (fun h => not_exists_missing h) fun payload h => ?_
      exact absurd (hjson.symm.trans h.json) (fun h => by cases h)
    | some payload =>
      dsimp only
      cases hempty : isEmptyEnvelope payload with
      | true =>
        refine iff_of_true (fun h => not_exists_missing h) fun other h => ?_
        obtain rfl := Option.some.inj (hjson.symm.trans h.json)
        exact absurd (hempty.symm.trans h.usable) Bool.noConfusion
      | false =>
        have hmisanswered : (∀ other, ¬Misanswered netuid response other) ↔
            ¬Misfit netuid (dataOf payload) :=
          ⟨fun h hmisfit => h payload ⟨hok, hjson, hempty, hmisfit⟩, fun h other hother => by
            obtain rfl := Option.some.inj (hjson.symm.trans hother.json)
            exact h hother.misfit⟩
        rw [hmisanswered, ← readData_identified_iff]
        simp only [Bool.false_eq_true, if_false, Option.map_some, Option.some.injEq]
  · have hread : ∀ payload, ¬Misanswered netuid response payload := fun payload h => hok h.ok
    refine iff_of_true (fun h => ?_) hread
    split_ifs at h
    · exact not_exists_missing h
    · exact not_exists_error h
    · rename_i hgood
      exact absurd (Bool.not_eq_false _ ▸ hgood) hok

/-- The record that exists is the one of the asked subnet exactly when the registry's answer is no
misfit. -/
theorem fetchSubnetRecord_identified_iff (env : NetuidVerificationEnv) (netuid : JsNumber)
    (fetchImpl : Units → ℕ → Option Response) :
    Identified netuid (answered env netuid fetchImpl) (fetchSubnetRecord env netuid fetchImpl) ↔
      ∀ response payload, fetchWithRetry (fetchImpl (subnetUrl env netuid)) = some response →
        ¬Misanswered netuid response payload := by
  unfold answered fetchSubnetRecord
  cases fetchWithRetry (fetchImpl (subnetUrl env netuid)) with
  | none =>
    exact iff_of_true (fun h => not_exists_error h) fun response payload h => by cases h
  | some response =>
    rw [Option.bind_some]
    dsimp only
    rw [readResponse_identified_iff]
    constructor
    · intro h other payload heq
      obtain rfl := Option.some.inj heq
      exact h payload
    · exact fun h payload => h response payload rfl

/-- A registry that answers every request with a list of subnet 6. -/
def listsSubnetSix : Units → ℕ → Option Response := fun _ _ =>
  some ⟨200, some (.object [("data",
    .array [.object [("netuid", .number (.finite 6)), ("name", .string (units "other"))]])])⟩

/-- The first element of the list is taken for subnet 5. -/
theorem list_answers_for_another_subnet :
    ¬Identified (.finite 5) (answered (fun _ => none) (.finite 5) listsSubnetSix)
      (fetchSubnetRecord (fun _ => none) (.finite 5) listsSubnetSix) := by
  intro h
  obtain ⟨⟨fields, hrecord, hfits⟩, -⟩ := h rfl
  obtain rfl := JsonValue.object.inj (Option.some.inj hrecord)
  exact hfits ⟨_, .finite 6, rfl, rfl, by decide⟩

end Identity

end Gittensory.NetuidVerification
