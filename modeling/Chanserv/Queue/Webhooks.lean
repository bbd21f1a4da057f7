import Chanserv.Queue.Shutdown

/-! Which webhooks of Jira are taken.

The address of a webhook carries a token, which is compared with the configured
secret byte by byte: all bytes are looked at, and the differences are or'ed into
one. A webhook with another token, and every one without a secret, is refused. -/
namespace Chanserv.Queue
open Text Program

/-- `char` of the host: signed. -/
abbrev Bytes := List Int8

/-- A request to the listener. The parameters are as Qt decodes them, in their order. -/
structure HttpRequest where
  path : Text
  queryItems : List (Text × Text) := []

/-- `queryItemValue`: the value of the first parameter of the name, or nothing. -/
def HttpRequest.queryItemValue (request : HttpRequest) (name : Text) : Text :=
  ((request.queryItems.find? fun item => item.1 = name).map Prod.snd).getD []

/-- `toUtf8` -/
def toUtf8 (t : Text) : Bytes := (t.flatMap String.utf8EncodeChar).map UInt8.toInt8

/-- The loop of `secure_equals` over strings of one length. -/
def differences : Bytes → Bytes → UInt8 → UInt8
  | r :: received, e :: expected, diff =>
    differences received expected (diff ||| (r.toUInt8 ^^^ e.toUInt8))
  | _, _, diff => diff

def secureEquals (received expected : Bytes) : Bool :=
  if received.length ≠ expected.length then false
  else differences received expected 0 = 0

def webhookTokenValid (request : HttpRequest) (secret : Bytes) : Bool :=
  if secret = [] then false
  else secureEquals (toUtf8 (request.queryItemValue (of "token"))) secret

inductive HttpAnswer where
  /-- 403 -/
  | forbidden
  /-- 200, "Queued" -/
  | queued
deriving DecidableEq, Repr

/-- The missing handler: the tasks it posts, and its answer. -/
def missingHandler (secret : Bytes) (request : HttpRequest) : List Task × HttpAnswer :=
  if webhookTokenValid request secret then ([.jiraWebhook request.path], .queued)
  else ([], .forbidden)

/-! ### The comparison -/

/-- No difference is lost: the result is zero when there was none, and is none. -/
theorem differences_eq_zero_iff {received expected : Bytes} (h : received.length = expected.length) (diff : UInt8) :
    differences received expected diff = 0 ↔ diff = 0 ∧ received = expected := by
  induction received generalizing expected diff with
  | nil =>
    obtain rfl := List.length_eq_zero_iff.mp h.symm
    simp [differences]
  | cons r received ih =>
    cases expected with
    | nil => cases h
    | cons e expected =>
      have hlen : received.length = expected.length := Nat.succ.inj h
      rw [differences, ih hlen, UInt8.or_eq_zero_iff, UInt8.xor_eq_zero_iff, List.cons.injEq]
      constructor
      · rintro ⟨⟨hdiff, hbyte⟩, hrest⟩
        exact ⟨hdiff, by rw [← Int8.toInt8_toUInt8 r, hbyte, Int8.toInt8_toUInt8], hrest⟩
      · rintro ⟨hdiff, hbyte, hrest⟩
        exact ⟨⟨hdiff, congrArg Int8.toUInt8 hbyte⟩, hrest⟩

theorem secureEquals_iff (received expected : Bytes) : secureEquals received expected = true ↔ received = expected := by
  unfold secureEquals
  by_cases h : received.length = expected.length
  · rw [if_neg (not_not.mpr h), decide_eq_true_eq, differences_eq_zero_iff h]
    exact and_iff_right rfl
  · rw [if_pos h]
    constructor
    · exact fun hn => absurd hn Bool.false_ne_true
    · exact fun heq => absurd (congrArg List.length heq) h

/-! ### The token -/

/-- The first parameter named token has the secret as its value. -/
def HttpRequest.Authentic (request : HttpRequest) (secret : Bytes) : Prop :=
  ∃ earlier value later, request.queryItems = earlier ++ (of "token", value) :: later ∧
    (∀ item ∈ earlier, item.1 ≠ of "token") ∧ toUtf8 value = secret

theorem toUtf8_nil : toUtf8 [] = [] := rfl

theorem webhookTokenValid_iff {request : HttpRequest} {secret : Bytes} :
    webhookTokenValid request secret = true ↔ secret ≠ [] ∧ request.Authentic secret := by
  unfold webhookTokenValid
  by_cases hsecret : secret = []
  · rw [if_pos hsecret]
    exact ⟨fun hn => absurd hn Bool.false_ne_true, fun h => absurd hsecret h.1⟩
  · rw [if_neg hsecret, secureEquals_iff, HttpRequest.queryItemValue]
    cases hfind : request.queryItems.find? fun item => item.1 = of "token" with
    | none =>
      rw [Option.map_none, Option.getD_none, toUtf8_nil]
      constructor
      · exact fun h => absurd h.symm hsecret
      · rintro ⟨-, earlier, value, later, hitems, -⟩
        have hno := List.find?_eq_none.mp hfind (of "token", value)
          (hitems ▸ List.mem_append_right _ (List.mem_cons_self ..))
        exact absurd (decide_eq_true rfl) hno
    | some item =>
      obtain ⟨hname, earlier, later, hitems, hearlier⟩ := List.find?_eq_some_iff_append.mp hfind
      obtain ⟨name, value⟩ := item
      obtain rfl : name = of "token" := of_decide_eq_true hname
      have hfirst : ∀ item ∈ earlier, item.1 ≠ of "token" := by
        intro item hitem heq
        have hno := hearlier item hitem
        rw [decide_eq_true heq] at hno
        cases hno
      rw [Option.map_some, Option.getD_some]
      constructor
      · exact fun h => ⟨hsecret, earlier, value, later, hitems, hfirst, h⟩
      · rintro ⟨-, earlier', value', later', hitems', hfirst', hvalue⟩
        have hsame : request.queryItems.find? (fun item => item.1 = of "token") = some (of "token", value') :=
          List.find?_eq_some_iff_append.mpr ⟨decide_eq_true rfl, earlier', later', hitems', fun item hitem => by
            rw [decide_eq_false (hfirst' item hitem)]
            rfl⟩
        rw [hfind, Option.some.injEq, Prod.mk.injEq] at hsame
        rw [hsame.2]
        exact hvalue

/-! ### The handler -/

/-- One task for a webhook with the secret as its token, none and 403 for any other; the comparison
behind it tells all strings of bytes apart. -/
theorem webhook_authenticated (secret : Bytes) (request : HttpRequest) :
    (secret ≠ [] ∧ request.Authentic secret → missingHandler secret request = ([.jiraWebhook request.path], .queued)) ∧
    (¬(secret ≠ [] ∧ request.Authentic secret) → missingHandler secret request = ([], .forbidden)) ∧
    ∀ a b : Bytes, secureEquals a b = true ↔ a = b := by
  refine ⟨fun h => ?_, fun h => ?_, secureEquals_iff⟩
  · rw [missingHandler, if_pos (webhookTokenValid_iff.mpr h)]
  · rw [missingHandler, if_neg (fun hvalid => h (webhookTokenValid_iff.mp hvalid))]

/-- The listener takes a webhook or refuses it as the handler does. -/
theorem missingHandler_step {p : Process} (h : p.listener = .serving) (secret : Bytes) (request : HttpRequest) :
    missingHandler secret request = ([], .forbidden) ∧ Process.Step p [.forbidden] p ∨
      missingHandler secret request = ([.jiraWebhook request.path], .queued) ∧
        Process.Step p [] {p with listener := .accepted request.path} := by
  unfold missingHandler
  cases webhookTokenValid request secret with
  | false => exact .inl ⟨rfl, .reject h⟩
  | true => exact .inr ⟨rfl, .accept h⟩

example : webhookTokenValid ⟨of "/UPD/A-1", [(of "user", of "x"), (of "token", of "a+b&c")]⟩ (toUtf8 (of "a+b&c")) = true ∧
    webhookTokenValid ⟨of "/UPD/A-1", [(of "token", [])]⟩ [] = false := by decide

end Chanserv.Queue
