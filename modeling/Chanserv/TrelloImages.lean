import Chanserv.TrelloFiles
import Mathlib.Data.List.TakeWhile

/-! Trello: whose file a place holds, and who is asked for it.

The address an image is kept under says which image it is and in what size
(`imageUrl_injective`), so two calls meet in one place only if they are about the same
file or their addresses have the same SHA-1 (`same_subject`). An escaped address has no scheme: images
are asked of Trello, whatever their address is (`requests_of_calls`). -/
namespace Chanserv
open Text Program

/-! ### Escaped addresses -/

section
variable {c : Char} {t u : Text} {n : Nat}

theorem utf8_injective (h : t.flatMap String.utf8EncodeChar = u.flatMap String.utf8EncodeChar) : t = u := by
  have hbytes : t.utf8Encode = u.utf8Encode := congrArg List.toByteArray h
  rw [← String.toByteArray_ofList, ← String.toByteArray_ofList, String.toByteArray_inj] at hbytes
  exact String.ofList_injective hbytes

theorem unreserved_upperHexDigit (hn : n < 16) : isUnreserved (upperHexDigit n) := by
  decide +revert

theorem unreserved_itoa {l : Int} (h : c ∈ itoa l) : isUnreserved c := by
  have hdigit {n : Nat} (h : c ∈ Nat.toDigits 10 n) : isUnreserved c := by
    have := Nat.isDigit_of_mem_toDigits (by decide) (by decide) h
    rw [isUnreserved, Char.isAlphanum, this, Bool.or_true, Bool.true_or]
  unfold itoa at h
  split at h
  · rcases List.mem_cons.mp h with rfl | h
    · decide
    · exact hdigit h
  · exact hdigit h

theorem mem_curlEscape (h : c ∈ curlEscape t) : isUnreserved c ∨ c = '%' := by
  obtain ⟨d, -, hc⟩ := List.mem_flatMap.mp h
  rw [curlEscapeChar] at hc
  split at hc
  case isTrue hd =>
    rw [List.mem_singleton] at hc
    exact .inl (hc ▸ hd)
  case isFalse =>
    obtain ⟨b, -, hc⟩ := List.mem_flatMap.mp hc
    have hb := b.toNat_lt
    rw [percentByte, List.mem_cons, List.mem_cons, List.mem_singleton] at hc
    rcases hc with rfl | rfl | rfl
    · exact .inr rfl
    · exact .inl (unreserved_upperHexDigit (by omega))
    · exact .inl (unreserved_upperHexDigit (by omega))

/-! ### Reading an address -/

def upperHexValue (c : Char) : Nat := if c.toNat < 58 then c.toNat - 48 else c.toNat - 55

def curlUnescape : Text → List UInt8
  | '%' :: a :: b :: t => UInt8.ofNat (16 * upperHexValue a + upperHexValue b) :: curlUnescape t
  | c :: t => UInt8.ofNat c.toNat :: curlUnescape t
  | [] => []

theorem upperHexValue_digit (hn : n < 16) : upperHexValue (upperHexDigit n) = n := by
  decide +revert

theorem curlUnescape_percentByte (b : UInt8) (t : Text) : curlUnescape (percentByte b ++ t) = b :: curlUnescape t := by
  have hb := b.toNat_lt
  rw [percentByte, List.cons_append, List.cons_append, List.cons_append, List.nil_append, curlUnescape,
    upperHexValue_digit (by omega), upperHexValue_digit (by omega), Nat.div_add_mod, UInt8.ofNat_toNat]

theorem curlUnescape_percentBytes (bs : List UInt8) (t : Text) :
    curlUnescape (bs.flatMap percentByte ++ t) = bs ++ curlUnescape t := by
  induction bs with
  | nil => rfl
  | cons b bs ih => rw [List.flatMap_cons, List.append_assoc, curlUnescape_percentByte, ih, List.cons_append]

theorem utf8_unreserved (h : isUnreserved c) : String.utf8EncodeChar c = [UInt8.ofNat c.toNat] := by
  have hbelow {lo hi : Char} (hc : (decide (c.val ≥ lo.val) && decide (c.val ≤ hi.val)) = true) :
      c.val.toNat ≤ hi.val.toNat := by
    rw [Bool.and_eq_true, decide_eq_true_eq, decide_eq_true_eq] at hc
    exact UInt32.le_iff_toNat_le.mp hc.2
  have hascii : c.val.toNat ≤ 0x7f := by
    rw [isUnreserved, Bool.or_eq_true, decide_eq_true_eq] at h
    rcases h with h | h
    · rcases Bool.or_eq_true_iff.mp h with h | h
      · rcases Bool.or_eq_true_iff.mp h with h | h
        · have hc : c.val ≥ 'A'.val ∧ c.val ≤ 'Z'.val := of_decide_eq_true h
          exact (UInt32.le_iff_toNat_le.mp hc.2).trans (by decide)
        · exact (hbelow h).trans (by decide)
      · exact (hbelow h).trans (by decide)
    · simp only [List.mem_cons, List.not_mem_nil, or_false] at h
      rcases h with rfl | rfl | rfl | rfl <;> decide
  exact if_pos hascii

theorem curlUnescape_escapeChar (c : Char) (t : Text) :
    curlUnescape (curlEscapeChar c ++ t) = String.utf8EncodeChar c ++ curlUnescape t := by
  rw [curlEscapeChar]
  split
  case isTrue h =>
    have hpercent : c ≠ '%' := by
      rintro rfl
      exact absurd h (by decide)
    rw [utf8_unreserved h, List.singleton_append, List.singleton_append, curlUnescape]
    intro a b rest hc
    exact absurd hc hpercent
  case isFalse => exact curlUnescape_percentBytes ..

/-- An escaped text is read back, byte by byte. -/
theorem curlUnescape_escape (t : Text) : curlUnescape (curlEscape t) = (cStr t).flatMap String.utf8EncodeChar := by
  rw [curlEscape]
  induction cStr t with
  | nil => rfl
  | cons c t ih => rw [List.flatMap_cons, curlUnescape_escapeChar, ih, List.flatMap_cons]

theorem curlEscape_injective (h : curlEscape t = curlEscape u) : cStr t = cStr u :=
  utf8_injective (by rw [← curlUnescape_escape, ← curlUnescape_escape, h])

/-! ### The addresses of images -/

theorem not_mem_of_unreserved {d : Char} (hd : isUnreserved d = false) (hne : d ≠ '%') : d ∉ curlEscape t := by
  intro h
  rcases mem_curlEscape h with hu | rfl
  · rw [hd] at hu
    cases hu
  · exact hne rfl

/-- Nothing, or a text behind a separator. -/
def Behind (d : Char) (t : Text) : Prop := t = [] ∨ ∃ rest, t = d :: rest

theorem takeWhile_behind {d : Char} (ht : d ∉ t) (hu : Behind d u) : (t ++ u).takeWhile (· ≠ d) = t := by
  rw [List.takeWhile_append_of_pos]
  · rcases hu with rfl | ⟨rest, rfl⟩
    · exact List.append_nil t
    · rw [List.takeWhile_cons_of_neg (by simp), List.append_nil]
  · intro c hc
    refine decide_eq_true ?_
    rintro rfl
    exact ht hc

/-- A text ends where the separator is. -/
theorem append_inj_behind {d : Char} {t' u' : Text} (ht : d ∉ t) (ht' : d ∉ t') (hu : Behind d u) (hu' : Behind d u')
    (h : t ++ u = t' ++ u') : t = t' ∧ u = u' := by
  have heq : t = t' := by rw [← takeWhile_behind ht hu, h, takeWhile_behind ht' hu']
  subst heq
  exact ⟨rfl, List.append_cancel_left h⟩

theorem parameter_behind (key : Text) (value : Option Int) : Behind '&' (parameter key value) := by
  cases value with
  | none => exact .inl rfl
  | some n => exact .inr ⟨_, rfl⟩

theorem parameters_behind (w h : Option Int) :
    Behind '&' (parameter (of "width") w ++ parameter (of "height") h) := by
  cases w with
  | none => exact parameter_behind (of "height") h
  | some n => exact .inr ⟨_, rfl⟩

theorem itoa_ampersand (n : Int) : '&' ∉ itoa n := fun h => by
  have hunreserved := unreserved_itoa h
  exact absurd hunreserved (by decide)

theorem parameter_injective {key : Text} {v v' : Option Int} (h : parameter key v = parameter key v') : v = v' := by
  cases v with
  | none =>
    cases v' with
    | none => rfl
    | some n => cases h
  | some m =>
    cases v' with
    | none => cases h
    | some n => exact congrArg some (itoa_injective (List.append_cancel_left h))

theorem parameters_injective {w h w' h' : Option Int}
    (heq : parameter (of "width") w ++ parameter (of "height") h =
      parameter (of "width") w' ++ parameter (of "height") h') : w = w' ∧ h = h' := by
  -- a width is not read as a height
  have hapart (n : Int) (h h' : Option Int) :
      parameter (of "width") (some n) ++ parameter (of "height") h ≠ parameter (of "height") h' := by
    intro hbad
    cases h' with
    | none => cases hbad
    | some _ =>
      have hletter : some 'w' = some 'h' := congrArg (·[1]?) hbad
      cases hletter
  cases w with
  | none =>
    cases w' with
    | none => exact ⟨rfl, parameter_injective heq⟩
    | some n => exact absurd heq.symm (hapart n h' h)
  | some m =>
    cases w' with
    | none => exact absurd heq (hapart m h h')
    | some n =>
      have hshape (n : Int) (h : Option Int) : parameter (of "width") (some n) ++ parameter (of "height") h =
          of "&width=" ++ (itoa n ++ parameter (of "height") h) := rfl
      rw [hshape, hshape] at heq
      have hrest := List.append_cancel_left heq
      obtain ⟨hwidth, hheight⟩ := append_inj_behind (itoa_ampersand m) (itoa_ampersand n)
        (parameter_behind _ h) (parameter_behind _ h') hrest
      exact ⟨congrArg some (itoa_injective hwidth), parameter_injective hheight⟩

/-- An image is asked for under an address of its own. -/
theorem imageUrl_injective {w h w' h' : Option Int} (heq : imageUrl t w h = imageUrl u w' h') :
    cStr t = cStr u ∧ w = w' ∧ h = h' := by
  rw [imageUrl, imageUrl, List.append_assoc, List.append_assoc] at heq
  have hurl {t : Text} : '&' ∉ curlEscape t := not_mem_of_unreserved rfl (by decide)
  obtain ⟨hescaped, hparameters⟩ :=
    append_inj_behind hurl hurl (parameters_behind w h) (parameters_behind w' h') heq
  exact ⟨curlEscape_injective hescaped, parameters_injective hparameters⟩

end

/-! ### Requests -/

theorem cStr_eq_self {t : Text} (h : '\x00' ∉ t) : cStr t = t := by
  refine List.takeWhile_eq_self_iff.mpr fun c hc => decide_eq_true ?_
  rintro rfl
  exact h hc

theorem not_mem_parameter {d : Char} {key : Text} {value : Option Int} (hd : isUnreserved d = false)
    (hne : d ≠ '&' ∧ d ≠ '=') (hkey : d ∉ key) : d ∉ parameter key value := by
  cases value with
  | none => exact List.not_mem_nil
  | some n =>
    intro h
    rcases List.mem_append.mp h with h | h
    · rcases List.mem_append.mp h with h | h
      · rcases List.mem_cons.mp h with h | h
        · exact hne.1 h
        · exact hkey h
      · exact hne.2 (List.mem_singleton.mp h)
    · rw [unreserved_itoa h] at hd
      cases hd

theorem not_mem_imageUrl {d : Char} {url : Text} {width height : Option Int} (hd : isUnreserved d = false)
    (hne : d ∉ of "%&=widthheight") : d ∉ imageUrl url width height := by
  have hapart {c : Char} (hc : c ∈ of "%&=widthheight") : d ≠ c := fun h => hne (h ▸ hc)
  have hurl : d ∉ curlEscape url := not_mem_of_unreserved hd (hapart (by decide))
  have hkey {key : Text} (hkey : key ⊆ of "%&=widthheight") (value : Option Int) : d ∉ parameter key value :=
    not_mem_parameter hd ⟨hapart (by decide), hapart (by decide)⟩ fun h => hne (hkey h)
  rw [imageUrl, List.mem_append, List.mem_append]
  rintro ((h | h) | h)
  · exact hurl h
  · exact hkey (by decide) width h
  · exact hkey (by decide) height h

/-- Images are asked of Trello. -/
theorem fullUrl_image (url : Text) (width height : Option Int) :
    fullUrl (imageUrl url width height) = trelloAddress ++ imageUrl url width height := by
  have hscheme : ¬of "://" <:+: imageUrl url width height := by
    intro h
    have hcolon : ':' ∈ imageUrl url width height := h.subset (by decide)
    exact not_mem_imageUrl rfl (by decide) hcolon
  rw [fullUrl, if_neg hscheme, cStr_eq_self (not_mem_imageUrl rfl (by decide))]

section
variable {api : TrelloApi} {s : TrelloCache} {calls : List FileCall}

/-- **Where the token goes.** In any run the network is asked, at most ten times a call, for the addresses of the calls
and no others; and for an image it is Trello that is asked. -/
theorem requests_of_calls (hs : s.Settled) (calls : List FileCall) :
    ∃ rs, (s.served api calls).requests = s.requests ++ rs ∧ rs.length ≤ 10 * calls.length ∧
      ∀ r ∈ rs, r.header = authorizationHeader api ∧
        ((∃ url force env, FileCall.file url force env ∈ calls ∧ r.url = fullUrl url) ∨
          ∃ url width height force env, FileCall.image url width height force env ∈ calls ∧
            r.url = trelloAddress ++ imageUrl url width height) := by
  obtain ⟨rs, hrequests, hten, hown⟩ := TrelloCache.served_requests api hs calls
  refine ⟨rs, hrequests, hten, ?_⟩
  intro r hr
  obtain ⟨c, hc, rfl⟩ := hown r hr
  refine ⟨rfl, ?_⟩
  cases c with
  | file url force env => exact .inl ⟨url, force, env, hc, rfl⟩
  | image url width height force env => exact .inr ⟨url, width, height, force, env, hc, fullUrl_image url width height⟩

theorem requests_of_calls_board :
    ∃ rs, (({} : TrelloCache).served boardApi [.file board false (secondAttempt 200 [1])]).requests = [] ++ rs ∧
      rs.length ≤ 10 * 1 ∧
      ∀ r ∈ rs, r.header = authorizationHeader boardApi ∧
        ((∃ url force env, FileCall.file url force env ∈ [.file board false (secondAttempt 200 [1])] ∧ r.url = fullUrl url) ∨
          ∃ url width height force env,
            FileCall.image url width height force env ∈ [.file board false (secondAttempt 200 [1])] ∧
            r.url = trelloAddress ++ imageUrl url width height) :=
  requests_of_calls TrelloCache.settled_empty [.file board false (secondAttempt 200 [1])]

/-! ### Places -/

theorem hexDigits_injective {bs bs' : List UInt8}
    (h : bs.flatMap (fun b => [hexDigit (b.toNat / 16), hexDigit (b.toNat % 16)]) =
      bs'.flatMap fun b => [hexDigit (b.toNat / 16), hexDigit (b.toNat % 16)]) : bs = bs' := by
  have hdigit : ∀ m < 16, ∀ n < 16, hexDigit m = hexDigit n → m = n := by decide
  induction bs generalizing bs' with
  | nil =>
    cases bs' with
    | nil => rfl
    | cons b' bs' => cases h
  | cons b bs ih =>
    cases bs' with
    | nil => cases h
    | cons b' bs' =>
      have hb := b.toNat_lt
      have hb' := b'.toNat_lt
      rw [List.flatMap_cons, List.flatMap_cons] at h
      obtain ⟨hhigh, h⟩ := List.cons.inj h
      obtain ⟨hlow, h⟩ := List.cons.inj h
      have hdiv := hdigit _ (by omega) _ (by omega) hhigh
      have hmod := hdigit _ (by omega) _ (by omega) hlow
      rw [ih h, UInt8.toNat_inj.mp (show b.toNat = b'.toNat by omega)]

/-- What a call is about: an address, or an image and its size. The address of an image counts up to its first NUL. -/
def FileCall.subject : FileCall → Text ⊕ (Text × Option Int × Option Int)
  | file url _ _ => .inl url
  | image url width height _ _ => .inr (cStr url, width, height)

/-- **A place is that of one file.** Calls whose files are in one place are about the same file, unless SHA-1 does not
tell their addresses apart. -/
theorem same_subject {c c' : FileCall} {f f' : Fetch Text (List UInt8) (Option TrelloError)}
    (hf : c.fetch api = some f) (hf' : c'.fetch api = some f') (hkey : f.key = f'.key)
    (hdigest : api.evpSha1 c.address = api.evpSha1 c'.address → c.address = c'.address) :
    c.subject = c'.subject := by
  rw [FileCall.fetch_key hf, FileCall.fetch_key hf'] at hkey
  have haddress (hextension : c.extension = c'.extension) : c.address = c'.address := by
    rw [fileName, fileName, hextension, List.append_left_inj, List.append_right_inj] at hkey
    exact hdigest (hexDigits_injective hkey)
  have hlast := congrArg List.getLast? hkey
  cases c with
  | file url force env =>
    cases c' with
    | file url' force' env' => exact congrArg Sum.inl (haddress rfl)
    | image url' width' height' force' env' =>
      rw [getLast?_fileName api _ rfl, getLast?_fileName api _ rfl] at hlast
      cases hlast
  | image url width height force env =>
    cases c' with
    | file url' force' env' =>
      rw [getLast?_fileName api _ rfl, getLast?_fileName api _ rfl] at hlast
      cases hlast
    | image url' width' height' force' env' =>
      obtain ⟨hurl, hwidth, hheight⟩ := imageUrl_injective (haddress rfl)
      show Sum.inr (cStr url, width, height) = Sum.inr (cStr url', width', height')
      rw [hurl, hwidth, hheight]

/-- The digest is that of the image's address below. -/
def imageApi : TrelloApi :=
  { boardApi with
    evpSha1 _ := [200, 209, 103, 141, 155, 9, 4, 84, 153, 196, 38, 82, 51, 243, 17, 138, 31, 154, 54, 26] }

/-- The image is asked for twice; behind a NUL its address differs. -/
theorem same_subject_board :
    (FileCall.image board (some 100) none false ⟨true, true, secondAttempt 200 [1]⟩).subject =
      (FileCall.image (board ++ '\x00' :: of "v2") (some 100) none true ⟨true, true, secondAttempt 404 []⟩).subject :=
  @same_subject imageApi _ _ _ _ rfl rfl rfl fun _ => rfl

end

end Chanserv
