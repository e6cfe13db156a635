/-
# DbInventory.Proofs.Signing.Binding -- a signed text binds its request

The string to sign and the canonical form are texts with parts behind one another, and a caller
chooses some of the parts freely, with any separators inside. The texts can be taken apart all the
same: both end in a digest, which has 64 digits whatever it is a digest of
(`append_hexDigest_inj`), and the moment is written in decimal digits, so that it ends at the first
line break (`decimal_line_inj`). The day is a function of the moment. What is left between fixed
texts is one free part in each of the two, the service and the host.

So two requests with one signed text are of one moment and one service, and beyond that they
differ only if SHA-256 has a collision, which they exhibit (`SigningRequest.signedText_binds`).
-/

import DbInventory.Proofs.Text.Decimals
import DbInventory.Signing.Authorization

namespace DbInventory

/-! ## Digests at the end of a text -/

namespace Sha256

/-- Two messages that are different and have one digest. -/
structure Collide (a b : List UInt8) : Prop where
  ne : a ≠ b
  digest_eq : digest a = digest b

end Sha256

open Sha256 (digest Collide)

variable {a b : List UInt8} {s t : String}

/-- Hexadecimal digits tell their bytes. -/
theorem hexText_inj :
    String.ofList (Text.hexBytes a) = String.ofList (Text.hexBytes b) ↔ a = b := by
  constructor
  · intro h
    have hbytes := congrArg Text.bytesOfHex (String.ofList_injective h)
    rw [Text.bytesOfHex_hexBytes, Text.bytesOfHex_hexBytes] at hbytes
    exact Option.some.inj hbytes
  · rintro rfl
    rfl

theorem hexDigest_inj : hexDigest a = hexDigest b ↔ digest a = digest b := hexText_inj

theorem length_hexDigest (a : List UInt8) : (hexDigest a).length = 64 := by
  rw [hexDigest, String.length_ofList, Text.length_hexBytes, Sha256.length_digest]

/-- A digest at the end of a text is told apart from what is in front of it. -/
theorem append_hexDigest_inj :
    s ++ hexDigest a = t ++ hexDigest b ↔ s = t ∧ digest a = digest b := by
  rw [append_inj_of_length (by rw [length_hexDigest, length_hexDigest]), hexDigest_inj]

/-! ## Decimal lines -/

/-- A line that holds a decimal number is told apart from the lines behind it. -/
theorem decimal_line_inj {m n : Int} :
    toString m ++ ("\n" ++ s) = toString n ++ ("\n" ++ t) ↔ m = n ∧ s = t := by
  have hline : ∀ (k : Int) (x : String),
      (toString k ++ ("\n" ++ x)).toList.takeWhile (· ≠ '\n') = (toString k).toList := by
    intro k x
    have hnone : ∀ c ∈ (toString k).toList, decide (c ≠ '\n') = true := by
      intro c hc
      rcases mem_decimal hc with rfl | hdigit
      · decide
      · exact decide_eq_true fun hc => absurd (hc ▸ hdigit) (by decide)
    rw [String.toList_append, List.takeWhile_append_of_pos hnone, String.toList_append]
    exact List.append_nil _
  constructor
  · intro h
    have hfirst := hline m s
    rw [h, hline n t] at hfirst
    obtain rfl := decimal_inj.1 (String.toList_injective hfirst)
    exact ⟨rfl, (String.append_right_inj "\n").1 ((String.append_right_inj _).1 h)⟩
  · rintro ⟨rfl, rfl⟩
    rfl

/-! ## The two texts -/

theorem signingScope_inj {date service service' : String} :
    signingScope date service = signingScope date service' ↔ service = service' := by
  simp [signingScope]

/-- **The parts of a string to sign**, of which the day is left out: it goes by the moment. -/
theorem stringToSign_inj {timestamp timestamp' : Int64}
    {date date' service service' canonical canonical' : String}
    (hdate : timestamp = timestamp' → date = date') :
    stringToSign timestamp date service canonical =
        stringToSign timestamp' date' service' canonical' ↔
      timestamp = timestamp' ∧ service = service' ∧
        digest (Text.utf8 canonical) = digest (Text.utf8 canonical') := by
  have hlines : ∀ timestamp date service canonical,
      stringToSign timestamp date service canonical =
        signingAlgorithm ++ ("\n" ++ (toString timestamp.toInt ++ ("\n" ++
          ((signingScope date service ++ "\n") ++ hexDigest (Text.utf8 canonical))))) := by
    intro timestamp date service canonical
    simp only [stringToSign, String.append_assoc]
  rw [hlines, hlines, String.append_right_inj, String.append_right_inj, decimal_line_inj,
    append_hexDigest_inj, String.append_left_inj, Int64.toInt_inj]
  constructor
  · rintro ⟨rfl, hscope, hdigest⟩
    obtain rfl := hdate rfl
    exact ⟨rfl, signingScope_inj.1 hscope, hdigest⟩
  · rintro ⟨rfl, rfl, hdigest⟩
    rw [hdate rfl]
    exact ⟨rfl, rfl, hdigest⟩

namespace SigningRequest

variable {r r' : SigningRequest}

/-- **The parts of a canonical form.** -/
theorem canonical_text_inj :
    r.canonical.text = r'.canonical.text ↔
      r.host = r'.host ∧ digest r.payload = digest r'.payload := by
  simp only [CanonicalRequest.text, canonical, append_hexDigest_inj, String.append_left_inj,
    String.append_right_inj]

/-- On a day, an authorization of the request shows the keyed digest of the text. -/
structure Signs (r : SigningRequest) (date : Date) (text : String) : Prop where
  date_eq : dateOfSeconds? r.timestamp = some date
  signedText_eq : r.signedText? = some text
  authorization_eq : ∀ secretId secretKey,
    r.authorization? secretId secretKey =
      some (signingAlgorithm ++ " Credential=" ++ secretId ++ "/" ++
        signingScope date.text r.service ++ ", SignedHeaders=" ++ signedHeaders ++
        ", Signature=" ++ String.ofList (Text.hexBytes
          (Sha256.keyedDigest (signingKey secretKey date.text r.service) (Text.utf8 text))))

theorem Signs.text_eq {date : Date} {text : String} (h : r.Signs date text) :
    text = stringToSign r.timestamp date.text r.service r.canonical.text := by
  have hsome := h.signedText_eq
  rw [signedText?, h.date_eq, Option.map_some] at hsome
  exact (Option.some.inj hsome).symm

theorem signs_of_dated (h : datedSeconds r.timestamp = true) : ∃ date text, r.Signs date text := by
  obtain ⟨date, hdate⟩ : ∃ date, dateOfSeconds? r.timestamp = some date := ⟨_, if_pos h⟩
  refine ⟨date, stringToSign r.timestamp date.text r.service r.canonical.text, hdate, ?_,
    fun secretId secretKey => ?_⟩
  · rw [signedText?, hdate, Option.map_some]
  · rw [authorization?, hdate, Option.map_some, authorizationOn]

/-- Requests with one canonical text show one host, and one payload or two that collide. -/
theorem collide_of_canonical_text_eq (htime : r.timestamp = r'.timestamp)
    (hservice : r.service = r'.service) (htext : r.canonical.text = r'.canonical.text) :
    r = r' ∨ Collide r.payload r'.payload := by
  obtain ⟨hhost, hdigest⟩ := canonical_text_inj.1 htext
  by_cases hpayload : r.payload = r'.payload
  · left
    obtain ⟨service, host, payload, timestamp⟩ := r
    obtain ⟨service', host', payload', timestamp'⟩ := r'
    obtain ⟨rfl, rfl, rfl, rfl⟩ :
        timestamp = timestamp' ∧ service = service' ∧ host = host' ∧ payload = payload' :=
      ⟨htime, hservice, hhost, hpayload⟩
    rfl
  · exact .inr ⟨hpayload, hdigest⟩

/-- **A signed text binds its request.** Every request of a moment with a date signs a text. The
texts of two requests are equal exactly if the moments and the services are equal and either the
hosts are equal and the payloads have one digest, or the canonical forms are different texts with
one digest. So two different requests with one signed text exhibit two messages that collide. -/
theorem signedText_binds (r r' : SigningRequest) (h : datedSeconds r.timestamp = true)
    (h' : datedSeconds r'.timestamp = true) :
    ∃ date text date' text', r.Signs date text ∧ r'.Signs date' text' ∧
      (text = text' ↔
        r.timestamp = r'.timestamp ∧ r.service = r'.service ∧
          (r.host = r'.host ∧ digest r.payload = digest r'.payload ∨
            r.canonical.text ≠ r'.canonical.text ∧
              digest (Text.utf8 r.canonical.text) = digest (Text.utf8 r'.canonical.text))) ∧
      (text = text' →
        r = r' ∨ Collide r.payload r'.payload ∨
          Collide (Text.utf8 r.canonical.text) (Text.utf8 r'.canonical.text)) := by
  obtain ⟨date, text, hsigns⟩ := signs_of_dated h
  obtain ⟨date', text', hsigns'⟩ := signs_of_dated h'
  have hdate : r.timestamp = r'.timestamp → date.text = date'.text := by
    intro htime
    have hsome := hsigns.date_eq
    rw [htime, hsigns'.date_eq] at hsome
    rw [Option.some.inj hsome]
  refine ⟨date, text, date', text', hsigns, hsigns', ?_, ?_⟩
  · rw [hsigns.text_eq, hsigns'.text_eq, stringToSign_inj hdate, ← canonical_text_inj]
    -- equal digests of the canonical forms come from equal texts or from different ones
    have hsplit : digest (Text.utf8 r.canonical.text) = digest (Text.utf8 r'.canonical.text) ↔
        r.canonical.text = r'.canonical.text ∨ r.canonical.text ≠ r'.canonical.text ∧
          digest (Text.utf8 r.canonical.text) = digest (Text.utf8 r'.canonical.text) := by
      constructor
      · intro hdigest
        exact (Decidable.em _).imp_right fun hne => ⟨hne, hdigest⟩
      · rintro (heq | ⟨-, hdigest⟩)
        · rw [heq]
        · exact hdigest
    exact and_congr_right' (and_congr_right' hsplit)
  · intro heq
    rw [hsigns.text_eq, hsigns'.text_eq, stringToSign_inj hdate] at heq
    obtain ⟨htime, hservice, hdigest⟩ := heq
    by_cases hcanonical : r.canonical.text = r'.canonical.text
    · exact (collide_of_canonical_text_eq htime hservice hcanonical).imp_right .inl
    · exact .inr (.inr ⟨fun hbytes => hcanonical (Text.utf8_injective hbytes), hdigest⟩)

/-- A service may hold the separators: it is another service all the same. -/
theorem signedText_binds_separators :
    ∃ date text date' text',
      Signs ⟨"sqlserver/tc3_request\n", "host", [123, 125], 1551113065⟩ date text ∧
      Signs ⟨"sqlserver", "host", [123, 125], 1551113065⟩ date' text' ∧ text ≠ text' := by
  obtain ⟨date, text, date', text', hsigns, hsigns', hiff, -⟩ :=
    signedText_binds ⟨"sqlserver/tc3_request\n", "host", [123, 125], 1551113065⟩
      ⟨"sqlserver", "host", [123, 125], 1551113065⟩ (by decide) (by decide)
  exact ⟨date, text, date', text', hsigns, hsigns', fun h => absurd (hiff.1 h).2.1 (by decide)⟩

end SigningRequest

end DbInventory
