import VcpMediaServer.Base64
import VcpMediaServer.Sdp

/-!
# Parameter sets in SDP

What the two readers make of the parameter sets that the writer puts into the description of a
stream. They are behind two other parameters of one word, with semicolons between: the reader of the
puller finds them, the reader of `ANNOUNCE`, which looks at the beginning of the word, **never**
does.

* `Base64Engine.Lawful` — what is relied on of the base64 crate.
* `lines_buildSdp` — the lines of a description.
* `parseSdpWithSpsPps_buildSdp`, `parseSpropParameterSets_buildSdp` — what each reader finds.
* `readBack_iff` — when both return the sets of the stream.
-/

namespace VcpMediaServer

/-- What is relied on of base64: what is encoded is decoded, in the characters of the alphabet. -/
structure Base64Engine.Lawful (b64 : Base64Engine) : Prop where
  decode_encode : ∀ bytes, b64.decode (b64.encode bytes) = some bytes
  alphabet : ∀ bytes, ∀ c ∈ b64.encode bytes, Base64.isBase64 c
  encode_ne_nil : ∀ bytes, bytes ≠ [] → b64.encode bytes ≠ []

/-! ## Folds -/

section Fold

variable {α β : Type*} {f : α → α} {g : α → β → α} {l : List β}

/-- What no update changes is left. -/
theorem foldl_eq_self {a : α} (h : ∀ x ∈ l, g a x = a) : l.foldl g a = a := by
  induction l with
  | nil => rfl
  | cons x l ih =>
    rw [List.foldl_cons, h x List.mem_cons_self]
    exact ih fun y hy => h y (List.mem_cons_of_mem x hy)

/-- Updates that are one idempotent function or none leave what the function gave. -/
theorem foldl_idempotent (hf : ∀ a, f (f a) = f a)
    (hall : ∀ x ∈ l, (∀ a, g a x = a) ∨ ∀ a, g a x = f a) (a : α) :
    l.foldl g (f a) = f a := by
  refine foldl_eq_self fun x hx => ?_
  rcases hall x hx with hnone | hsome
  · exact hnone (f a)
  · rw [hsome, hf]

/-- If one of them is the function, what is left of all is the function, **once**. -/
theorem foldl_of_idempotent (hf : ∀ a, f (f a) = f a)
    (hall : ∀ x ∈ l, (∀ a, g a x = a) ∨ ∀ a, g a x = f a) (hex : ∃ x ∈ l, ∀ a, g a x = f a)
    (a : α) : l.foldl g a = f a := by
  induction l with
  | nil =>
    obtain ⟨x, hx, -⟩ := hex
    exact absurd hx List.not_mem_nil
  | cons x l ih =>
    have htail : ∀ y ∈ l, (∀ a, g a y = a) ∨ ∀ a, g a y = f a :=
      fun y hy => hall y (List.mem_cons_of_mem x hy)
    have hrest := foldl_idempotent hf htail a
    rw [List.foldl_cons]
    rcases hall x List.mem_cons_self with hnone | hsome
    · obtain ⟨y, hy, hsome⟩ := hex
      rcases List.mem_cons.mp hy with rfl | hy
      · rw [hsome a, hrest]
      · rw [hnone a]
        exact ih htail ⟨y, hy, hsome⟩
    · rw [hsome a, hrest]

end Fold

/-! ## Words -/

/-- A character that ends neither a line nor a word nor a parameter. -/
def IsPlain (c : Char) : Prop := Text.isWhitespace c = false ∧ c ≠ ';' ∧ c ≠ ','

instance (c : Char) : Decidable (IsPlain c) := inferInstanceAs (Decidable (_ ∧ _))

theorem isPlain_of_isBase64 {c : Char} (h : Base64.isBase64 c) : IsPlain c := by
  have hascii : ∀ n < 128, Base64.isBase64 (Char.ofNat n) → IsPlain (Char.ofNat n) := by decide
  have hplain := hascii c.toNat (Base64.toNat_lt_of_isBase64 h)
  rw [Char.ofNat_toNat] at hplain
  exact hplain h

theorem isPlain_decimal (n : ℕ) : ∀ c ∈ decimal n, IsPlain c := by
  intro c hc
  have hdigit := Nat.isDigit_of_mem_toDigits (by decide) (by decide) hc
  exact isPlain_of_isBase64 (by simp [Base64.isBase64, Char.isAlphanum, hdigit])

theorem isPlain_hexByte (b : UInt8) : ∀ c ∈ hexByte b, IsPlain c := by
  have hdigits : ∀ n < 16, IsPlain (Char.toUpper (Nat.digitChar n)) := by decide
  have hlt := UInt8.toNat_lt b
  intro c hc
  simp only [hexByte, List.map_cons, List.map_nil, List.mem_cons, List.not_mem_nil, or_false] at hc
  rcases hc with rfl | rfl
  · exact hdigits _ (by omega)
  · exact hdigits _ (by omega)

theorem isPlain_profileLevelId (sps : List UInt8) : ∀ c ∈ profileLevelId sps, IsPlain c := by
  rw [profileLevelId]
  split
  · have hfront :=
      List.forall_mem_append.mpr ⟨isPlain_hexByte (sps.getD 1 0), isPlain_hexByte (sps.getD 2 0)⟩
    exact List.forall_mem_append.mpr ⟨hfront, isPlain_hexByte (sps.getD 3 0)⟩
  · exact List.forall_iff_forall_mem.mp (by decide)

theorem IsPlain.ne_newline {c : Char} (h : IsPlain c) : c ≠ '\n' := by
  rintro rfl
  exact absurd h (by decide)

theorem newline_not_mem {word : List Char} (h : ∀ c ∈ word, IsPlain c) : '\n' ∉ word := fun hmem =>
  (h _ hmem).ne_newline rfl

theorem Base64Engine.Lawful.isPlain_encode {b64 : Base64Engine} (h : b64.Lawful)
    (bytes : List UInt8) :
    ∀ c ∈ b64.encode bytes, IsPlain c := fun c hc => isPlain_of_isBase64 (h.alphabet bytes c hc)

/-! ## Lines -/

theorem sdpText_append (front rest : List (List Char)) :
    sdpText (front ++ rest) = sdpText front ++ sdpText rest :=
  List.flatMap_append

/-- Lines without a newline in them are read as they are. -/
theorem lines_sdpText {ls : List (List Char)} (h : ∀ line ∈ ls, '\n' ∉ line) :
    Text.lines (sdpText ls) = ls :=
  Text.lines_crlf h

/-- The name of a stream may have newlines, but the last of the lines in front of the media is a
fixed one. -/
theorem lines_sdpText_sessionLines (streamId : StreamId) (rest : List (List Char)) :
    Text.lines (sdpText (sessionLines streamId ++ rest)) =
      Text.lines (sdpText (sessionLines streamId)) ++ Text.lines (sdpText rest) := by
  obtain ⟨front, hfront⟩ : ∃ front, sdpText (sessionLines streamId) = front ++ ['\n'] :=
    ⟨sdpText (sessionLines streamId).dropLast ++ "t=0 0\r".toList, by simp [sessionLines, sdpText]⟩
  rw [sdpText_append, hfront, List.append_assoc, List.singleton_append]
  exact Text.lines_append_newline front (sdpText rest)

/-! ## Lines of parameters -/

/-- A line of parameters that are one word: the payload type and the parameters. -/
def fmtpLine (payloadType : UInt8) (params : List Char) : List Char :=
  "a=fmtp:".toList ++ decimal payloadType.toNat ++ ' ' :: params

theorem splitWhitespace_fmtpLine (payloadType : UInt8) {params : List Char} (hne : params ≠ [])
    (h : ∀ c ∈ params, Text.isWhitespace c = false) :
    Text.splitWhitespace (fmtpLine payloadType params) =
        ["a=fmtp:".toList ++ decimal payloadType.toNat, params] := by
  have hattribute : ∀ c ∈ "a=fmtp:".toList, Text.isWhitespace c = false :=
    List.forall_iff_forall_mem.mp (by decide)
  have hword : ∀ c ∈ "a=fmtp:".toList ++ decimal payloadType.toNat, Text.isWhitespace c = false :=
    List.forall_mem_append.mpr ⟨hattribute, fun c hc => (isPlain_decimal _ c hc).1⟩
  have hwordNe : "a=fmtp:".toList ++ decimal payloadType.toNat ≠ [] :=
    List.append_ne_nil_of_left_ne_nil (by decide) _
  have hspace : Text.isWhitespace ' ' = true := by decide
  have hsplit := Text.splitWhitespace_append hwordNe hword hspace params
  rw [Text.splitWhitespace_word hne h] at hsplit
  exact hsplit

/-- The parameters of H.264: the sets are behind two other ones. -/
def h264Params (b64 : Base64Engine) (sps pps : List UInt8) : List Char :=
  "packetization-mode=1".toList ++ ';' ::
    ("profile-level-id=".toList ++ profileLevelId sps ++ ';' ::
    (SPROP ++ (b64.encode sps ++ ',' :: b64.encode pps)))

/-- The parameters of AAC, each with a semicolon behind it. -/
def aacParams : List Char :=
  ["profile-level-id=1", "mode=AAC-hbr", "sizelength=13", "indexlength=3",
      "indexdeltalength=3"].flatMap fun param =>
    param.toList ++ [';']

theorem h264Fmtp_eq (b64 : Base64Engine) (sps pps : List UInt8) (payloadType : UInt8) :
    h264Fmtp b64 (some sps, some pps) payloadType =
        fmtpLine payloadType (h264Params b64 sps pps) := by
  unfold h264Fmtp fmtpLine h264Params SPROP
  simp

theorem aacFmtp_eq (payloadType : UInt8) :
    aacFmtp payloadType = fmtpLine payloadType aacParams := by
  unfold aacFmtp fmtpLine aacParams
  simp

theorem h264Params_ne_nil (b64 : Base64Engine) (sps pps : List UInt8) :
    h264Params b64 sps pps ≠ [] :=
  List.append_ne_nil_of_left_ne_nil (by decide) _

theorem aacParams_ne_nil : aacParams ≠ [] := List.cons_ne_nil _ _

theorem isPlain_mode : ∀ c ∈ "packetization-mode=1".toList, IsPlain c :=
  List.forall_iff_forall_mem.mp (by decide)

theorem isPlain_profile (sps : List UInt8) :
    ∀ c ∈ "profile-level-id=".toList ++ profileLevelId sps, IsPlain c := by
  have hname : ∀ c ∈ "profile-level-id=".toList, IsPlain c :=
    List.forall_iff_forall_mem.mp (by decide)
  exact List.forall_mem_append.mpr ⟨hname, isPlain_profileLevelId sps⟩

/-- The value: the parameter that carries the sets. -/
theorem sprop_value {b64 : Base64Engine} (h : b64.Lawful) (sps pps : List UInt8) :
    ∀ c ∈ SPROP ++ (b64.encode sps ++ ',' :: b64.encode pps), Text.isWhitespace c = false ∧
        c ≠ ';' := by
  have hname : ∀ c ∈ SPROP, Text.isWhitespace c = false ∧ c ≠ ';' := by
    unfold SPROP
    exact List.forall_iff_forall_mem.mp (by decide)
  have hencode : ∀ bytes, ∀ c ∈ b64.encode bytes, Text.isWhitespace c = false ∧ c ≠ ';' :=
    fun bytes c hc => (h.isPlain_encode bytes c hc).imp_right And.left
  refine List.forall_mem_append.mpr ⟨hname, List.forall_mem_append.mpr ⟨hencode sps, ?_⟩⟩
  exact List.forall_mem_cons.mpr ⟨by decide, hencode pps⟩

/-- There is no space in the parameters of H.264. -/
theorem isWhitespace_h264Params {b64 : Base64Engine} (h : b64.Lawful) (sps pps : List UInt8) :
    ∀ c ∈ h264Params b64 sps pps, Text.isWhitespace c = false := by
  unfold h264Params
  refine List.forall_mem_append.mpr ⟨fun c hc => (isPlain_mode c hc).1,
    List.forall_mem_cons.mpr ⟨by decide, ?_⟩⟩
  refine List.forall_mem_append.mpr ⟨fun c hc => (isPlain_profile sps c hc).1,
    List.forall_mem_cons.mpr ⟨by decide, ?_⟩⟩
  exact fun c hc => (sprop_value h sps pps c hc).1

/-- The **semicolons** separate the parameters. -/
theorem splitOn_h264Params {b64 : Base64Engine} (h : b64.Lawful) (sps pps : List UInt8) :
    (h264Params b64 sps pps).splitOn ';' = ["packetization-mode=1".toList,
      "profile-level-id=".toList ++ profileLevelId sps,
          SPROP ++ (b64.encode sps ++ ',' :: b64.encode pps)] := by
  have hmode : ';' ∉ "packetization-mode=1".toList := fun hmem => (isPlain_mode _ hmem).2.1 rfl
  have hprofile : ';' ∉ "profile-level-id=".toList ++ profileLevelId sps :=
    fun hmem => (isPlain_profile sps _ hmem).2.1 rfl
  have hvalue : ';' ∉ SPROP ++ (b64.encode sps ++ ',' :: b64.encode pps) :=
    fun hmem => (sprop_value h sps pps _ hmem).2 rfl
  unfold h264Params
  rw [List.splitOn_append_cons_self_of_not_mem hmode,
    List.splitOn_append_cons_self_of_not_mem hprofile, List.splitOn_eq_singleton hvalue]

theorem fmtp_isPrefixOf_fmtpLine (payloadType : UInt8) (params : List Char) :
    "a=fmtp:".toList.isPrefixOf (fmtpLine payloadType params) := by
  unfold fmtpLine
  rw [List.append_assoc]
  exact List.isPrefixOf_iff_prefix.mpr ⟨_, rfl⟩

theorem announcePart_of_none (b64 : Base64Engine) (sets : ParameterSets) {part : List Char}
    (h : Text.stripPrefix SPROP part = none) : announcePart b64 sets part = sets := by
  rw [announcePart, h]

theorem spropParam_of_none (b64 : Base64Engine) (sets : ParameterSets) {param : List Char}
    (h : Text.stripPrefix SPROP param = none) : spropParam b64 sets param = sets := by
  rw [spropParam, h]

theorem spropLine_of_not (b64 : Base64Engine) (sets : ParameterSets) {line : List Char}
    (h : "a=fmtp:".toList.isPrefixOf line = false) : spropLine b64 sets line = sets := by
  rw [spropLine, h, if_neg Bool.false_ne_true]

/-- The reader of `ANNOUNCE` looks at the beginning of two words. -/
theorem announceFmtp_fmtpLine (b64 : Base64Engine) (sets : ParameterSets) (payloadType : UInt8)
    {params : List Char} (hne : params ≠ []) (h : ∀ c ∈ params, Text.isWhitespace c = false) :
    announceFmtp b64 sets (fmtpLine payloadType params) = announcePart b64 sets params := by
  have hword : Text.stripPrefix SPROP ("a=fmtp:".toList ++ decimal payloadType.toNat) = none := rfl
  unfold announceFmtp
  rw [splitWhitespace_fmtpLine payloadType hne h, List.foldl_cons, List.foldl_cons, List.foldl_nil,
    announcePart_of_none b64 sets hword]

/-- The reader of the puller takes the second one apart. -/
theorem spropLine_fmtpLine (b64 : Base64Engine) (sets : ParameterSets) (payloadType : UInt8)
    {params : List Char} (hne : params ≠ []) (h : ∀ c ∈ params, Text.isWhitespace c = false) :
    spropLine b64 sets (fmtpLine payloadType params) =
        (params.splitOn ';').foldl (spropParam b64) sets := by
  have hword : Text.stripPrefix SPROP ("a=fmtp:".toList ++ decimal payloadType.toNat) = none := rfl
  have hattribute : ';' ∉ "a=fmtp:".toList := by decide
  have hsplit : ("a=fmtp:".toList ++ decimal payloadType.toNat).splitOn ';' =
      ["a=fmtp:".toList ++ decimal payloadType.toNat] := by
    refine List.splitOn_eq_singleton fun hmem => ?_
    rcases List.mem_append.mp hmem with hmem | hmem
    · exact hattribute hmem
    · exact (isPlain_decimal _ _ hmem).2.1 rfl
  rw [spropLine, if_pos (fmtp_isPrefixOf_fmtpLine payloadType params),
    splitWhitespace_fmtpLine payloadType hne h, List.foldl_cons, List.foldl_cons, List.foldl_nil,
    hsplit, List.foldl_cons, List.foldl_nil, spropParam_of_none b64 sets hword]

/-! ## What a line adds -/

/-- The sets of a value, put where there is room. -/
def spropBoth (sps pps : List UInt8) (sets : ParameterSets) : ParameterSets :=
  spropSet (spropSet sets 0 sps) 1 pps

/-- The value is read **to the bytes** that were written. -/
theorem spropParam_value {b64 : Base64Engine} (h : b64.Lawful) (sets : ParameterSets)
    {sps pps : List UInt8} (hsps : sps ≠ []) (hpps : pps ≠ []) :
    spropParam b64 sets (SPROP ++ (b64.encode sps ++ ',' :: b64.encode pps)) =
        spropBoth sps pps sets := by
  have hsemicolon : ';' ∉ b64.encode sps ++ ',' :: b64.encode pps := fun hmem =>
    (sprop_value h sps pps _ (List.mem_append_right _ hmem)).2 rfl
  have hcomma : ∀ bytes, ',' ∉ b64.encode bytes :=
    fun bytes hmem => (h.isPlain_encode bytes _ hmem).2.2 rfl
  have hsplit : (b64.encode sps ++ ',' :: b64.encode pps).splitOn ',' =
      [b64.encode sps, b64.encode pps] := by
    rw [List.splitOn_append_cons_self_of_not_mem (hcomma sps),
      List.splitOn_eq_singleton (hcomma pps)]
  rw [spropParam, Text.stripPrefix_append]
  simp only [Text.trimEndMatches_of_not_mem hsemicolon, spropParams, hsplit, List.zipIdx_cons,
    List.zipIdx_nil, List.foldl_cons, List.foldl_nil, if_neg (h.encode_ne_nil sps hsps),
    if_neg (h.encode_ne_nil pps hpps), h.decode_encode]
  rfl

theorem announceFmtp_h264Fmtp {b64 : Base64Engine} (h : b64.Lawful) (sps pps : List UInt8)
    (payloadType : UInt8) (sets : ParameterSets) :
    announceFmtp b64 sets (h264Fmtp b64 (some sps, some pps) payloadType) = sets := by
  have hparams : Text.stripPrefix SPROP (h264Params b64 sps pps) = none := rfl
  rw [h264Fmtp_eq, announceFmtp_fmtpLine b64 sets payloadType (h264Params_ne_nil b64 sps pps)
    (isWhitespace_h264Params h sps pps), announcePart_of_none b64 sets hparams]

theorem spropLine_h264Fmtp {b64 : Base64Engine} (h : b64.Lawful) {sps pps : List UInt8}
    (hsps : sps ≠ []) (hpps : pps ≠ []) (payloadType : UInt8) (sets : ParameterSets) :
    spropLine b64 sets (h264Fmtp b64 (some sps, some pps) payloadType) =
        spropBoth sps pps sets := by
  have hmode : Text.stripPrefix SPROP "packetization-mode=1".toList = none := rfl
  have hprofile : Text.stripPrefix SPROP ("profile-level-id=".toList ++ profileLevelId sps) =
    none := rfl
  rw [h264Fmtp_eq, spropLine_fmtpLine b64 sets payloadType (h264Params_ne_nil b64 sps pps)
    (isWhitespace_h264Params h sps pps), splitOn_h264Params h, List.foldl_cons, List.foldl_cons,
      List.foldl_cons,
    List.foldl_nil, spropParam_of_none b64 sets hmode, spropParam_of_none b64 sets hprofile,
    spropParam_value h sets hsps hpps]

theorem isWhitespace_aacParams : ∀ c ∈ aacParams, Text.isWhitespace c = false := by
  unfold aacParams
  exact List.forall_iff_forall_mem.mp (by decide)

theorem announceFmtp_aacFmtp (b64 : Base64Engine) (payloadType : UInt8) (sets : ParameterSets) :
    announceFmtp b64 sets (aacFmtp payloadType) = sets := by
  have hparams : Text.stripPrefix SPROP aacParams = none := rfl
  rw [aacFmtp_eq,
    announceFmtp_fmtpLine b64 sets payloadType aacParams_ne_nil isWhitespace_aacParams,
    announcePart_of_none b64 sets hparams]

theorem spropLine_aacFmtp (b64 : Base64Engine) (payloadType : UInt8) (sets : ParameterSets) :
    spropLine b64 sets (aacFmtp payloadType) = sets := by
  have hparams : ∀ param ∈ aacParams.splitOn ';', Text.stripPrefix SPROP param = none := by
    unfold aacParams
    decide
  rw [aacFmtp_eq, spropLine_fmtpLine b64 sets payloadType aacParams_ne_nil isWhitespace_aacParams]
  exact foldl_eq_self fun param hparam => spropParam_of_none b64 sets (hparams param hparam)

/-! ## The media -/

theorem newline_not_mem_sdpMedia (codec : CodecType) :
    '\n' ∉ (sdpMedia codec).1 ∧ '\n' ∉ (sdpMedia codec).2.1 := by
  cases codec <;> decide

theorem newline_not_mem_fmtpLine (payloadType : UInt8) {params : List Char}
    (h : ∀ c ∈ params, Text.isWhitespace c = false) : '\n' ∉ fmtpLine payloadType params := by
  have hattribute : '\n' ∉ "a=fmtp:".toList := by decide
  have hparams : '\n' ∉ ' ' :: params :=
    List.not_mem_cons_of_ne_of_not_mem (by decide) fun hmem => absurd (h _ hmem) (by decide)
  exact List.not_mem_append (List.not_mem_append hattribute (newline_not_mem (isPlain_decimal _)))
    hparams

/-- A line of a track is one of parameters, or it is of another kind. -/
theorem mem_trackLines {b64 : Base64Engine} {sets : ParameterSets} {track : Track} {idx : ℕ}
    {line : List Char} (h : line ∈ trackLines b64 sets track idx) :
    ("a=fmtp:".toList.isPrefixOf line = false ∧ '\n' ∉ line) ∨ line =
      h264Fmtp b64 sets track.payloadType ∨
      line = aacFmtp track.payloadType := by
  obtain ⟨hmediaType, hcodecName⟩ := newline_not_mem_sdpMedia track.codec
  have hdecimal : ∀ n, '\n' ∉ decimal n := fun n => newline_not_mem (isPlain_decimal n)
  unfold trackLines at h
  rcases List.mem_append.mp h with h | h
  · simp only [List.mem_cons, List.not_mem_nil, or_false] at h
    rcases h with rfl | rfl | rfl | rfl
    · refine .inl ⟨rfl, List.not_mem_append (List.not_mem_append ?_ (by decide)) (hdecimal _)⟩
      exact List.not_mem_append (by decide) hmediaType
    · exact .inl (by decide)
    · refine .inl ⟨rfl, List.not_mem_append (List.not_mem_append ?_ (by decide)) (hdecimal _)⟩
      refine List.not_mem_append (List.not_mem_append ?_ (by decide)) hcodecName
      exact List.not_mem_append (by decide) (hdecimal _)
    · exact .inl ⟨rfl, List.not_mem_append (by decide) (hdecimal _)⟩
  · split at h
    · exact .inr (.inl (List.mem_singleton.mp h))
    · split at h
      · exact .inr (.inr (List.mem_singleton.mp h))
      · exact absurd h List.not_mem_nil

theorem h264Fmtp_mem_trackLines (b64 : Base64Engine) (sets : ParameterSets) {track : Track}
    (hcodec : track.codec = .h264) (idx : ℕ) :
    h264Fmtp b64 sets track.payloadType ∈ trackLines b64 sets track idx := by
  unfold trackLines
  rw [if_pos hcodec]
  exact List.mem_append_right _ (List.mem_singleton.mpr rfl)

theorem mem_mediaLines {b64 : Base64Engine} {stream : Stream} {line : List Char}
    (h : line ∈ mediaLines b64 stream) :
    ("a=fmtp:".toList.isPrefixOf line = false ∧ '\n' ∉ line) ∨ ∃ payloadType : UInt8,
      line = h264Fmtp b64 (stream.sps, stream.pps) payloadType ∨ line = aacFmtp payloadType := by
  obtain ⟨⟨track, idx⟩, -, hline⟩ := List.mem_flatMap.mp h
  rcases mem_trackLines hline with hother | hfmtp
  · exact .inl hother
  · exact .inr ⟨track.payloadType, hfmtp⟩

theorem h264Fmtp_mem_mediaLines (b64 : Base64Engine) {stream : Stream} {track : Track}
    (hmem : track ∈ stream.tracks) (hcodec : track.codec = .h264) :
    h264Fmtp b64 (stream.sps, stream.pps) track.payloadType ∈ mediaLines b64 stream := by
  obtain ⟨idx, hidx⟩ := List.mem_iff_getElem?.mp hmem
  unfold mediaLines
  rw [if_neg (List.ne_nil_of_mem hmem)]
  exact List.mem_flatMap.mpr ⟨(track, idx), List.mk_mem_zipIdx_iff_getElem?.mpr hidx,
    h264Fmtp_mem_trackLines b64 _ hcodec idx⟩

variable {b64 : Base64Engine} {m : StreamManager} {streamId : StreamId} {stream : Stream}
    {sps pps : List UInt8}

theorem newline_not_mem_mediaLines (h : b64.Lawful) (hsps : stream.sps = some sps)
    (hpps : stream.pps = some pps) :
    ∀ line ∈ mediaLines b64 stream, '\n' ∉ line := by
  intro line hline
  rcases mem_mediaLines hline with ⟨-, hother⟩ | ⟨payloadType, rfl | rfl⟩
  · exact hother
  · rw [hsps, hpps, h264Fmtp_eq]
    exact newline_not_mem_fmtpLine payloadType (isWhitespace_h264Params h sps pps)
  · rw [aacFmtp_eq]
    exact newline_not_mem_fmtpLine payloadType isWhitespace_aacParams

/-- The lines of a description: those in front of the media, however they are read, and the ones of
the media. -/
theorem lines_buildSdp (h : b64.Lawful) (hstream : m.getStream streamId = some stream)
    (hsps : stream.sps = some sps) (hpps : stream.pps = some pps) :
    Text.lines (buildSdp b64 m streamId) =
      Text.lines (sdpText (sessionLines streamId)) ++ mediaLines b64 stream := by
  rw [buildSdp, hstream, lines_sdpText_sessionLines,
    lines_sdpText (newline_not_mem_mediaLines h hsps hpps)]

/-! ## The reader of `ANNOUNCE` -/

@[simp] theorem SdpScan.close_sets (s : SdpScan) : s.close.sets = s.sets := by
  rcases s with ⟨tracks, sets, _ | media⟩ <;> rfl

/-- A line changes the sets only if it is one of parameters. -/
theorem SdpScan.outer_sets {line : List Char} (s : SdpScan)
    (h : "a=fmtp:".toList.isPrefixOf line → ∀ sets, announceFmtp b64 sets line = sets) :
    (s.outer b64 line).sets = s.sets := by
  rw [SdpScan.outer]
  split
  · exact h ‹_› s.sets
  · split
    · split <;> rfl
    · rfl

theorem SdpScan.step_sets {line : List Char} (s : SdpScan)
    (h : "a=fmtp:".toList.isPrefixOf line → ∀ sets, announceFmtp b64 sets line = sets) :
    (s.step b64 line).sets = s.sets := by
  rw [SdpScan.step]
  split
  · exact s.outer_sets h
  · rw [SdpScan.inner]
    split
    · split <;> rfl
    · split
      · next hfmtp => exact h (Bool.and_eq_true_iff.mp hfmtp).1 s.sets
      · split
        · rw [s.close.outer_sets h, SdpScan.close_sets]
        · rfl

theorem foldl_step_sets {ls : List (List Char)}
    (h : ∀ line ∈ ls, "a=fmtp:".toList.isPrefixOf line → ∀ sets, announceFmtp b64 sets line = sets)
    (s : SdpScan) :
    (ls.foldl (SdpScan.step b64) s).sets = s.sets := by
  induction ls generalizing s with
  | nil => rfl
  | cons line ls ih =>
    rw [List.foldl_cons, ih fun l hl => h l (List.mem_cons_of_mem line hl),
      s.step_sets (h line List.mem_cons_self)]

/-- The reader of `ANNOUNCE` finds **nothing in the media**: what it returns is in the lines in
front of them. -/
theorem parseSdpWithSpsPps_buildSdp (h : b64.Lawful) (hstream : m.getStream streamId = some stream)
    (hsps : stream.sps = some sps) (hpps : stream.pps = some pps) :
    (parseSdpWithSpsPps b64 (buildSdp b64 m streamId)).2 =
      (parseSdpWithSpsPps b64 (sdpText (sessionLines streamId))).2 := by
  have hmedia : ∀ line ∈ mediaLines b64 stream, "a=fmtp:".toList.isPrefixOf line →
      ∀ sets, announceFmtp b64 sets line = sets := by
    intro line hline hfmtp sets
    rcases mem_mediaLines hline with ⟨hother, -⟩ | ⟨payloadType, rfl | rfl⟩
    · exact absurd hfmtp (Bool.eq_false_iff.mp hother)
    · rw [hsps, hpps]
      exact announceFmtp_h264Fmtp h sps pps payloadType sets
    · exact announceFmtp_aacFmtp b64 payloadType sets
  simp only [parseSdpWithSpsPps, scanLines, SdpScan.close_sets, lines_buildSdp h hstream hsps hpps,
    List.foldl_append, foldl_step_sets hmedia]

/-! ## The reader of the puller -/

theorem spropBoth_some (x y : List UInt8) :
    spropBoth sps pps (some x, some y) = (some x, some y) := by
  have hset : ∀ idx decoded, spropSet (some x, some y) idx decoded = (some x, some y) := by
    intro idx decoded
    simp [spropSet]
  rw [spropBoth, hset, hset]

theorem spropBoth_spropBoth (hsps : sps ≠ []) (hpps : pps ≠ []) (htype : sdpNalType sps = 7)
    (sets : ParameterSets) :
    spropBoth sps pps (spropBoth sps pps sets) = spropBoth sps pps sets := by
  obtain ⟨x, y, hxy⟩ : ∃ x y, spropBoth sps pps sets = (some x, some y) := by
    rcases sets with ⟨_ | x, _ | y⟩ <;> simp [spropBoth, spropSet, hsps, hpps, htype]
  rw [hxy, spropBoth_some]

/-- The sets that were read before stay. -/
theorem spropBoth_eq_iff (hsps : sps ≠ []) (hpps : pps ≠ []) (hspsType : sdpNalType sps = 7)
    (hppsType : sdpNalType pps = 8) (sets : ParameterSets) :
    spropBoth sps pps sets = (some sps, some pps) ↔
      sets = (some sps, some pps) ∨ sets.1 = none ∧ (sets.2 = none ∨ sets.2 = some pps) := by
  have hne : sps ≠ pps := by
    rintro rfl
    exact absurd (hspsType.symm.trans hppsType) (by decide)
  rcases sets with ⟨_ | x, _ | y⟩
  · simp [spropBoth, spropSet, hsps, hpps, hspsType, hppsType]
  · simp [spropBoth, spropSet, hsps, hpps, hspsType, hppsType]
  · simp [spropBoth, spropSet, hsps, hpps, hspsType, hppsType, hne]
  · simp [spropBoth_some]

/-- The reader of the puller finds the sets of the media where those in front of them leave room. -/
theorem parseSpropParameterSets_buildSdp (h : b64.Lawful)
    (hstream : m.getStream streamId = some stream) (hsps : stream.sps = some sps)
    (hpps : stream.pps = some pps) (hspsNe : sps ≠ []) (hppsNe : pps ≠ [])
    (hspsType : sdpNalType sps = 7) (htrack : ∃ track ∈ stream.tracks, track.codec = .h264) :
    parseSpropParameterSets b64 (buildSdp b64 m streamId) =
      spropBoth sps pps (parseSpropParameterSets b64 (sdpText (sessionLines streamId))) := by
  have hall : ∀ line ∈ mediaLines b64 stream,
      (∀ sets, spropLine b64 sets line = sets) ∨ ∀ sets, spropLine b64 sets line =
          spropBoth sps pps sets := by
    intro line hline
    rcases mem_mediaLines hline with ⟨hother, -⟩ | ⟨payloadType, rfl | rfl⟩
    · exact .inl fun sets => spropLine_of_not b64 sets hother
    · rw [hsps, hpps]
      exact .inr (spropLine_h264Fmtp h hspsNe hppsNe payloadType)
    · exact .inl (spropLine_aacFmtp b64 payloadType)
  have hex : ∃ line ∈ mediaLines b64 stream, ∀ sets, spropLine b64 sets line =
      spropBoth sps pps sets := by
    obtain ⟨track, hmem, hcodec⟩ := htrack
    refine ⟨_, h264Fmtp_mem_mediaLines b64 hmem hcodec, ?_⟩
    rw [hsps, hpps]
    exact spropLine_h264Fmtp h hspsNe hppsNe track.payloadType
  rw [parseSpropParameterSets, lines_buildSdp h hstream hsps hpps, List.foldl_append,
    foldl_of_idempotent (spropBoth_spropBoth hspsNe hppsNe hspsType) hall hex]
  rfl

/-! ## Names -/

/-- A name without a newline: nothing in front of the media is a line of parameters. -/
theorem sessionLines_of_not_mem (h : '\n' ∉ streamId.toList) :
    (parseSdpWithSpsPps b64 (sdpText (sessionLines streamId))).2 = (none, none) ∧
      parseSpropParameterSets b64 (sdpText (sessionLines streamId)) = (none, none) := by
  have hnewline : ∀ line ∈ sessionLines streamId, '\n' ∉ line := by
    intro line hline
    simp only [sessionLines, List.mem_cons, List.not_mem_nil, or_false] at hline
    rcases hline with rfl | rfl | rfl | rfl
    · decide
    · decide
    · exact List.not_mem_append (by decide) h
    · decide
  have hfmtp : ∀ line ∈ sessionLines streamId, "a=fmtp:".toList.isPrefixOf line = false := by
    intro line hline
    simp only [sessionLines, List.mem_cons, List.not_mem_nil, or_false] at hline
    rcases hline with rfl | rfl | rfl | rfl
    all_goals rfl
  constructor
  · have hquiet : ∀ line ∈ sessionLines streamId, "a=fmtp:".toList.isPrefixOf line →
        ∀ sets, announceFmtp b64 sets line = sets :=
      fun line hline hfront => absurd hfront (Bool.eq_false_iff.mp (hfmtp line hline))
    rw [parseSdpWithSpsPps, lines_sdpText hnewline, scanLines, SdpScan.close_sets,
      foldl_step_sets hquiet]
  · rw [parseSpropParameterSets, lines_sdpText hnewline]
    exact foldl_eq_self fun line hline => spropLine_of_not b64 _ (hfmtp line hline)

/-- Both readers return the parameter sets that the description of the stream was written with. -/
def ReadBack (b64 : Base64Engine) (m : StreamManager) (streamId : StreamId) (sps pps : List UInt8) :
    Prop :=
  (parseSdpWithSpsPps b64 (buildSdp b64 m streamId)).2 = (some sps, some pps) ∧
    parseSpropParameterSets b64 (buildSdp b64 m streamId) = (some sps, some pps)

/-- The **name** of the stream has lines from which the reader of `ANNOUNCE` takes these sets, and
the reader of the puller no others. -/
def NameCarries (b64 : Base64Engine) (streamId : StreamId) (sps pps : List UInt8) : Prop :=
  let front := sdpText (sessionLines streamId)
  (parseSdpWithSpsPps b64 front).2 = (some sps, some pps) ∧
    (parseSpropParameterSets b64 front = (some sps, some pps) ∨
      (parseSpropParameterSets b64 front).1 = none ∧
        ((parseSpropParameterSets b64 front).2 = none ∨
          (parseSpropParameterSets b64 front).2 = some pps))

/-- A name without a newline carries nothing. -/
theorem not_nameCarries (h : '\n' ∉ streamId.toList) : ¬NameCarries b64 streamId sps pps := by
  rintro ⟨hannounce, -⟩
  rw [(sessionLines_of_not_mem h).1] at hannounce
  exact absurd (congrArg Prod.fst hannounce) (by simp)

/-- The parameter sets are read back **only if the name of the stream brings them along**: the
reader of the puller returns them for every name without a newline, the reader of `ANNOUNCE` for
none. -/
theorem readBack_iff (h : b64.Lawful) (hstream : m.getStream streamId = some stream)
    (htrack : ∃ track ∈ stream.tracks, track.codec = .h264) (hsps : stream.sps = some sps)
    (hpps : stream.pps = some pps) (hspsLength : 2 ≤ sps.length) (hppsLength : 2 ≤ pps.length)
    (hspsType : sdpNalType sps = 7) (hppsType : sdpNalType pps = 8) :
    (ReadBack b64 m streamId sps pps ↔ NameCarries b64 streamId sps pps) ∧
      ('\n' ∉ streamId.toList → ¬NameCarries b64 streamId sps pps ∧
        (parseSdpWithSpsPps b64 (buildSdp b64 m streamId)).2 = (none, none) ∧
        parseSpropParameterSets b64 (buildSdp b64 m streamId) = (some sps, some pps)) := by
  have hspsNe : sps ≠ [] := List.ne_nil_of_length_pos (by omega)
  have hppsNe : pps ≠ [] := List.ne_nil_of_length_pos (by omega)
  have hannounce := parseSdpWithSpsPps_buildSdp h hstream hsps hpps
  have hsprop := parseSpropParameterSets_buildSdp h hstream hsps hpps hspsNe hppsNe hspsType htrack
  refine ⟨?_, fun hname => ⟨not_nameCarries hname, ?_, ?_⟩⟩
  · rw [ReadBack, hannounce, hsprop, spropBoth_eq_iff hspsNe hppsNe hspsType hppsType]
    rfl
  · rw [hannounce, (sessionLines_of_not_mem hname).1]
  · rw [hsprop, spropBoth_eq_iff hspsNe hppsNe hspsType hppsType, (sessionLines_of_not_mem hname).2]
    exact .inr ⟨rfl, .inl rfl⟩

/-- The base64 of the standard. -/
def standardBase64 : Base64Engine := ⟨Base64.encode, Base64.decode⟩

theorem lawful_standardBase64 : standardBase64.Lawful where
  decode_encode := Base64.decode_encode
  alphabet := Base64.encode_alphabet
  encode_ne_nil _ := Base64.encode_ne_nil

/-- The parameter sets of a camera. -/
def camSps : List UInt8 := [0x67, 0x42, 0xC0, 0x1E, 0x88]

/-- See `camSps`. -/
def camPps : List UInt8 := [0x68, 0xCE, 0x3C]

/-- The camera publishes, and its parameter sets are known. -/
def camManager : StreamManager :=
  ((StreamManager.new.createStream "cam" .push .rtsp none).1.setStreamTracks "cam"
    defaultLiveTracks).setStreamSpsPps
    "cam" camSps camPps

/-- The stream of the camera. -/
def camStream : Stream :=
  { id := "cam", tracks := defaultLiveTracks, status := .created, playbackStatus := .idle,
    source := .push, protocol := .rtsp, pullUrl := none, sps := some camSps, pps := some camPps }

theorem getStream_camManager : camManager.getStream "cam" = some camStream := rfl

theorem readBack_cam :
    (ReadBack standardBase64 camManager "cam" camSps camPps ↔
      NameCarries standardBase64 "cam" camSps camPps) ∧
      ('\n' ∉ "cam".toList → ¬NameCarries standardBase64 "cam" camSps camPps ∧
        (parseSdpWithSpsPps standardBase64 (buildSdp standardBase64 camManager "cam")).2 =
          (none, none) ∧
        parseSpropParameterSets standardBase64 (buildSdp standardBase64 camManager "cam") =
          (some camSps, some camPps)) :=
  readBack_iff lawful_standardBase64 getStream_camManager ⟨_, List.mem_cons_self, rfl⟩ rfl rfl
    (by decide) (by decide) (by decide) (by decide)

/-- The reader of `ANNOUNCE` does not find the parameter sets of the camera. -/
theorem not_readBack_cam :
    standardBase64.Lawful ∧ camManager.getStream "cam" = some camStream ∧
      (∃ track ∈ camStream.tracks, track.codec = .h264) ∧ camStream.sps = some camSps ∧
        camStream.pps = some camPps ∧
      2 ≤ camSps.length ∧ 2 ≤ camPps.length ∧ sdpNalType camSps = 7 ∧ sdpNalType camPps = 8 ∧
      ¬ReadBack standardBase64 camManager "cam" camSps camPps := by
  refine ⟨lawful_standardBase64, getStream_camManager, ⟨_, List.mem_cons_self, rfl⟩, rfl,
    rfl, by decide, by decide, by decide, by decide, ?_⟩
  rintro ⟨hannounce, -⟩
  have hname : '\n' ∉ "cam".toList := by decide
  rw [parseSdpWithSpsPps_buildSdp lawful_standardBase64 getStream_camManager rfl rfl,
    (sessionLines_of_not_mem hname).1] at hannounce
  exact absurd (congrArg Prod.fst hannounce) (by decide)

end VcpMediaServer
