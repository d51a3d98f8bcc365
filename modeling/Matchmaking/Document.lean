import Matchmaking.Books.Row
import Matchmaking.Json.Coded
import Matchmaking.Judgement.Verdict

/-! The JSON documents in which profiles, verdicts and the rows of the books are passed on. A row
carries the times at which it was written. -/
namespace Matchmaking

structure ClientDocument extends Client where
  shortlistAt : Option String
  createdAt : String
  updatedAt : String
deriving DecidableEq, Repr

structure PairingDocument extends Pairing where
  date : String
  createdAt : String
  updatedAt : String
deriving DecidableEq, Repr

structure MoveDocument extends Move where
  createdAt : String
deriving DecidableEq, Repr

structure LeaseDocument extends Lease where
  acquiredAt : String
deriving DecidableEq, Repr

open Coded (encode record fields? required? optional?)

namespace Profile

def fieldNames : List String :=
  ["name", "gender", "age", "birth_year_month", "height", "education", "marital_status",
    "monthly_income", "house_status", "has_car", "avatar"]

def fieldValues (p : Profile) : List Json :=
  [encode p.name, encode p.gender, encode p.age, encode p.birthMonth, encode p.height,
    encode p.education, encode p.marital, encode p.monthlyIncome, encode p.housing,
    encode p.hasCar, encode p.avatar]

def ofFields? : List (Option Json) → Option Profile
  | [name, gender, age, birthMonth, height, education, marital, monthlyIncome, housing,
      hasCar, avatar] => do
    return {
      name := ← required? name
      gender := ← required? gender
      age := ← required? age
      birthMonth := ← optional? birthMonth
      height := ← required? height
      education := ← required? education
      marital := ← required? marital
      monthlyIncome := ← required? monthlyIncome
      housing := ← required? housing
      hasCar := ← required? hasCar
      avatar := ← optional? avatar }
  | _ => none

end Profile

instance : Coded Profile where
  encode p := record (Profile.fieldNames.zip p.fieldValues)
  decode? j := do Profile.ofFields? (← fields? Profile.fieldNames j)

instance : Coded ClientDocument where
  encode c := record (("id", encode c.id) :: Profile.fieldNames.zip c.profile.fieldValues ++ [
    ("status", encode c.standing),
    ("partner_id", encode c.partner),
    ("candidate_cache", encode c.shortlist),
    ("candidate_cache_updated_at", encode c.shortlistAt),
    ("created_at", encode c.createdAt),
    ("updated_at", encode c.updatedAt)])
  decode? j := do
    let id :: rest ← fields? ("id" :: Profile.fieldNames ++ ["status", "partner_id",
      "candidate_cache", "candidate_cache_updated_at", "created_at", "updated_at"]) j | none
    let [standing, partner, shortlist, shortlistAt, createdAt, updatedAt] := rest.drop 11 | none
    return {
      id := ← required? id
      profile := ← Profile.ofFields? (rest.take 11)
      standing := ← required? standing
      partner := ← optional? partner
      shortlist := ← optional? shortlist
      shortlistAt := ← optional? shortlistAt
      createdAt := ← required? createdAt
      updatedAt := ← required? updatedAt }

instance : Coded PairingDocument where
  encode p := record [
    ("id", encode p.id),
    ("male_client_id", encode p.man),
    ("female_client_id", encode p.woman),
    ("match_date", encode p.date),
    ("match_score", encode p.score),
    ("status", encode p.stage),
    ("remark", encode p.remark),
    ("admin_id", encode p.admin),
    ("created_at", encode p.createdAt),
    ("updated_at", encode p.updatedAt)]
  decode? j := do
    let [id, man, woman, date, score, stage, remark, admin, createdAt, updatedAt] ← fields?
      ["id", "male_client_id", "female_client_id", "match_date", "match_score", "status", "remark",
        "admin_id", "created_at", "updated_at"] j | none
    return {
      id := ← required? id
      man := ← required? man
      woman := ← required? woman
      date := ← required? date
      score := ← required? score
      stage := ← required? stage
      remark := ← required? remark
      admin := ← required? admin
      createdAt := ← required? createdAt
      updatedAt := ← required? updatedAt }

instance : Coded MoveDocument where
  encode m := record [
    ("id", encode m.id),
    ("match_record_id", encode m.pairing),
    ("old_status", encode m.before),
    ("new_status", encode m.after),
    ("operator", encode m.operator),
    ("reason", encode m.reason),
    ("created_at", encode m.createdAt)]
  decode? j := do
    let [id, pairing, before, after, operator, reason, createdAt] ← fields?
      ["id", "match_record_id", "old_status", "new_status", "operator", "reason", "created_at"] j
      | none
    return {
      id := ← required? id
      pairing := ← required? pairing
      before := ← required? before
      after := ← required? after
      operator := ← required? operator
      reason := ← required? reason
      createdAt := ← required? createdAt }

instance : Coded LeaseDocument where
  encode l := record [
    ("lock_key", encode l.key),
    ("holder", encode l.holder),
    ("expires_at", encode l.expiresAt),
    ("acquired_at", encode l.acquiredAt)]
  decode? j := do
    let [key, holder, expiresAt, acquiredAt] ← fields?
      ["lock_key", "holder", "expires_at", "acquired_at"] j | none
    return {
      key := ← required? key
      holder := ← required? holder
      expiresAt := ← required? expiresAt
      acquiredAt := ← required? acquiredAt }

instance : Coded Verdict where
  encode v := record [("score", encode v.score), ("tags", encode v.tags)]
  decode? j := do
    let [score, tags] ← fields? ["score", "tags"] j | none
    return { score := ← required? score, tags := ← required? tags }

end Matchmaking
