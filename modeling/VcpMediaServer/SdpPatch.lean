import VcpMediaServer.FirstMatch
import VcpMediaServer.SdpParameterSets

/-!
# Patching an answer

The answer for a player is given the parameter sets of the stream: in the line of parameters of the
payload type of H.264, or in one behind its `a=rtpmap`. The lines are found by what they begin with,
and **any number** that goes on behind the payload type begins with it.

* `patchAnswerSdpH264` — `patch_answer_sdp_h264`.
* `patchedLines` — the lines that should come out.
* `HitsItsLine` — the condition on the lines.
* `patchAnswerSdpH264_iff` — the answer has these lines **exactly then**.
-/

namespace VcpMediaServer

/-! ## The new line -/

/-- `{:02x}`. -/
def lowerHexByte (b : UInt8) : List Char :=
  [Nat.digitChar (b.toNat / 16), Nat.digitChar (b.toNat % 16)]

/-- `profile_level_id_from_sps`. -/
def profileLevelIdFromSps (sps : List UInt8) : Option (List Char) :=
  if sps = [] then none
  else
    let start := if sps.getD 0 0 &&& 0x1F = 7 then 1 else 0
    if sps.length < start + 3 then none
    else
      some (lowerHexByte (sps.getD start 0) ++ lowerHexByte (sps.getD (start + 1) 0) ++
        lowerHexByte (sps.getD (start + 2) 0))

/-- `build_h264_sdp_fmtp`. -/
def buildH264SdpFmtp (b64 : Base64Engine) (sps pps : List UInt8) : List Char :=
  let profile := (profileLevelIdFromSps sps).getD "42e01f".toList
  "level-asymmetry-allowed=1;packetization-mode=1;profile-level-id=".toList ++ profile ++
    ";sprop-parameter-sets=".toList ++ b64.encode sps ++ ",".toList ++ b64.encode pps

/-! ## The payload type -/

/-- A payload type. -/
def parsePayloadType (text : List Char) : Option UInt8 :=
  (Text.parseUnsigned 256 text).map UInt8.ofNat

/-- The payload type and the codec, in lower case, behind `a=rtpmap:`. -/
def rtpmapEntry (rest : List Char) : Option (UInt8 × List Char) := do
  let parts := Text.splitWhitespace rest
  let pt ← parts[0]?.bind parsePayloadType
  let codec ← parts[1]?
  return (pt, codec.map Char.toLower)

/-- The loop of `h264_payload_type_from_sdp`: a line that cannot be read ends it. -/
def h264PayloadTypeLoop : List (List Char) → Option UInt8
  | [] => none
  | line :: lines =>
    match Text.stripPrefix "a=rtpmap:".toList line with
    | none => h264PayloadTypeLoop lines
    | some rest =>
      match rtpmapEntry rest with
      | none => none
      | some (pt, codec) => if "h264/".toList.isPrefixOf codec then some pt
        else h264PayloadTypeLoop lines

/-- `h264_payload_type_from_sdp`. -/
def h264PayloadTypeFromSdp (sdp : List Char) : Option UInt8 := h264PayloadTypeLoop (Text.lines sdp)

/-! ## The patch -/

/-- `join_sdp_lines`. -/
def joinSdpLines (lines : List (List Char)) : List Char :=
  if lines = [] then []
  else
    let out := ['\r', '\n'].intercalate lines
    if ['\r', '\n'].isSuffixOf out then out else out ++ ['\r', '\n']

/-- The line begins with the parameters of a payload type, as far as its number goes. -/
def startsFmtp (pt : UInt8) (line : List Char) : Bool :=
  ("a=fmtp:".toList ++ decimal pt.toNat).isPrefixOf line

/-- The line begins with the codec of a payload type, as far as its number goes. -/
def startsRtpmap (pt : UInt8) (line : List Char) : Bool :=
  ("a=rtpmap:".toList ++ decimal pt.toNat).isPrefixOf line

/-- `patch_answer_sdp_h264`. -/
def patchAnswerSdpH264 (b64 : Base64Engine) (sdp : List Char) (sps pps : List UInt8) : List Char :=
  match h264PayloadTypeFromSdp sdp with
  | none => sdp
  | some pt =>
    joinSdpLines (FirstMatch.patch (startsFmtp pt) (startsRtpmap pt)
      (fmtpLine pt (buildH264SdpFmtp b64 sps pps)) (Text.lines sdp))

/-! ## The lines that should come out -/

/-- The line has the parameters of a payload type. -/
def isFmtpOf (pt : UInt8) (line : List Char) : Bool :=
  ((Text.stripPrefix "a=fmtp:".toList line).bind fun rest =>
    (Text.splitWhitespace rest)[0]?.bind parsePayloadType) = some pt

/-- The payload type that a line gives to H.264. -/
def h264PayloadOf (line : List Char) : Option UInt8 :=
  match (Text.stripPrefix "a=rtpmap:".toList line).bind rtpmapEntry with
  | none => none
  | some (pt, codec) => if "h264/".toList.isPrefixOf codec then some pt else none

/-- The line gives a payload type to H.264. -/
def isH264RtpmapOf (pt : UInt8) (line : List Char) : Bool := h264PayloadOf line = some pt

/-- The line of parameters of the payload type is the new one; if there is none, the new one is
behind the line that gives the payload type to H.264. -/
def patchedLines (b64 : Base64Engine) (pt : UInt8) (sps pps : List UInt8)
    (lines : List (List Char)) :
    List (List Char) :=
  FirstMatch.patch (isFmtpOf pt) (isH264RtpmapOf pt)
    (fmtpLine pt (buildH264SdpFmtp b64 sps pps)) lines

/-- An `a=rtpmap` that cannot be read. -/
def isMalformedRtpmap (line : List Char) : Bool :=
  (Text.stripPrefix "a=rtpmap:".toList line).any fun rest => (rtpmapEntry rest).isNone

/-- One of them is in front of the first line for H.264. -/
def malformedFirst (lines : List (List Char)) : Bool :=
  (lines.takeWhile fun line => (h264PayloadOf line).isNone).any isMalformedRtpmap

/-- The condition on the lines. If the payload type cannot be found, its line is the new one
already. If it can, the last line is not empty, the first line that begins like one of its
parameters is one, and if there is none, the first line that begins like its `a=rtpmap` gives it to
H.264. -/
def HitsItsLine (b64 : Base64Engine) (pt : UInt8) (sps pps : List UInt8)
    (lines : List (List Char)) : Prop :=
  if malformedFirst lines then lines.find? (isFmtpOf pt) =
    some (fmtpLine pt (buildH264SdpFmtp b64 sps pps))
  else
    lines.getLast? ≠ some [] ∧ lines.findIdx? (startsFmtp pt) = lines.findIdx? (isFmtpOf pt) ∧
      (lines.findIdx? (startsFmtp pt) = none →
        lines.findIdx? (startsRtpmap pt) = lines.findIdx? (isH264RtpmapOf pt))

/-! ## The payload type is found -/

theorem h264PayloadTypeLoop_eq (lines : List (List Char)) :
    h264PayloadTypeLoop lines = if malformedFirst lines then none
        else lines.findSome? h264PayloadOf := by
  induction lines with
  | nil => rfl
  | cons line lines ih =>
    rw [h264PayloadTypeLoop, malformedFirst, List.takeWhile_cons, List.findSome?_cons]
    cases hrest : Text.stripPrefix "a=rtpmap:".toList line with
    | none =>
      have hof : h264PayloadOf line = none := by rw [h264PayloadOf, hrest, Option.bind_none]
      have hfine : isMalformedRtpmap line =
        false := by rw [isMalformedRtpmap, hrest, Option.any_none]
      rw [hof, Option.isNone_none, if_pos rfl, List.any_cons, hfine, Bool.false_or]
      exact ih
    | some rest =>
      dsimp only
      cases hentry : rtpmapEntry rest with
      | none =>
        have hof : h264PayloadOf line = none := by
          rw [h264PayloadOf, hrest, Option.bind_some, hentry]
        have hbad : isMalformedRtpmap line = true := by
          rw [isMalformedRtpmap, hrest, Option.any_some, hentry, Option.isNone_none]
        rw [hof, Option.isNone_none, if_pos rfl, List.any_cons, hbad, Bool.true_or, if_pos rfl]
      | some entry =>
        obtain ⟨pt, codec⟩ := entry
        have hof : h264PayloadOf line = if "h264/".toList.isPrefixOf codec then some pt
            else none := by
          rw [h264PayloadOf, hrest, Option.bind_some, hentry]
        have hfine : isMalformedRtpmap line = false := by
          rw [isMalformedRtpmap, hrest, Option.any_some, hentry, Option.isNone_some]
        dsimp only
        rw [hof]
        split
        · rw [Option.isNone_some, if_neg Bool.false_ne_true, List.any_nil,
            if_neg Bool.false_ne_true]
        · rw [Option.isNone_none, if_pos rfl, List.any_cons, hfine, Bool.false_or]
          exact ih

/-! ## Lines and text -/

/-- Different lines are different texts. -/
theorem sdpText_inj {ls ls' : List (List Char)} (h : ∀ line ∈ ls, '\n' ∉ line)
    (h' : ∀ line ∈ ls', '\n' ∉ line) :
    sdpText ls = sdpText ls' ↔ ls = ls' := by
  refine ⟨fun hsame => ?_, fun hsame => by rw [hsame]⟩
  rw [← lines_sdpText h, hsame, lines_sdpText h']

theorem intercalate_concat (init : List (List Char)) (last : List Char) :
    ['\r', '\n'].intercalate (init ++ [last]) = sdpText init ++ last := by
  induction init with
  | nil => simp [sdpText]
  | cons line init ih =>
    obtain ⟨next, rest, hnext⟩ :=
      List.exists_cons_of_ne_nil
        (List.append_ne_nil_of_right_ne_nil init (List.cons_ne_nil last []))
    rw [List.cons_append, hnext, List.intercalate_cons_cons, ← hnext, ih]
    simp [sdpText]

/-- An empty line at the end of others is lost. -/
theorem joinSdpLines_concat_nil {init : List (List Char)} (hne : init ≠ []) :
    joinSdpLines (init ++ [[]]) = sdpText init := by
  have hsuffix : ['\r', '\n'].isSuffixOf (sdpText init) = true := by
    rw [List.isSuffixOf_iff_suffix, ← List.dropLast_append_getLast hne, sdpText_append]
    exact ⟨sdpText init.dropLast ++ init.getLast hne, by simp [sdpText]⟩
  rw [joinSdpLines, if_neg (List.append_ne_nil_of_right_ne_nil init (List.cons_ne_nil _ _))]
  dsimp only
  rw [intercalate_concat, List.append_nil, if_pos hsuffix]

/-- Other lines are joined as they are. -/
theorem joinSdpLines_of_getLast?_ne {ls : List (List Char)} (hne : ls ≠ [])
    (h : ∀ line ∈ ls, '\n' ∉ line) (hlast : ls.getLast? ≠ some []) :
    joinSdpLines ls = sdpText ls := by
  have hls := List.dropLast_append_getLast hne
  have hlastNe : ls.getLast hne ≠ [] := by
    intro hnil
    rw [List.getLast?_eq_some_getLast hne, hnil] at hlast
    exact hlast rfl
  have hnewline := h _ (List.getLast_mem hne)
  rw [joinSdpLines, if_neg hne]
  dsimp only
  generalize ls.dropLast = init at hls
  generalize ls.getLast hne = last at hls hlastNe hnewline
  have hsuffix : ¬ ['\r', '\n'].isSuffixOf (sdpText init ++ last) = true := by
    rw [List.isSuffixOf_iff_suffix]
    intro hsuffix
    have hend := hsuffix.getLast (List.cons_ne_nil '\r' ['\n'])
    rw [List.getLast_append_of_ne_nil _ hlastNe] at hend
    have hmem := List.getLast_mem hlastNe
    rw [← hend] at hmem
    exact hnewline hmem
  rw [← hls, intercalate_concat, if_neg hsuffix, sdpText_append]
  simp [sdpText]

/-! ## The new line -/

theorem isPlain_lowerHexByte (b : UInt8) : ∀ c ∈ lowerHexByte b, IsPlain c := by
  have hdigits : ∀ n < 16, IsPlain (Nat.digitChar n) := by decide
  have hlt := b.toNat_lt
  exact List.forall_mem_cons.mpr
    ⟨hdigits _ (by omega), List.forall_mem_singleton.mpr (hdigits _ (by omega))⟩

theorem isPlain_profileLevelIdFromSps (sps : List UInt8) :
    ∀ c ∈ (profileLevelIdFromSps sps).getD "42e01f".toList, IsPlain c := by
  have hdefault : ∀ c ∈ "42e01f".toList, IsPlain c := List.forall_iff_forall_mem.mp (by decide)
  have hbytes : ∀ a b d : UInt8, ∀ c ∈ lowerHexByte a ++ lowerHexByte b ++ lowerHexByte d,
      IsPlain c := by
    intro a b d
    have hfront := List.forall_mem_append.mpr ⟨isPlain_lowerHexByte a, isPlain_lowerHexByte b⟩
    exact List.forall_mem_append.mpr ⟨hfront, isPlain_lowerHexByte d⟩
  rw [profileLevelIdFromSps]
  split
  · exact hdefault
  · dsimp only
    generalize (if sps.getD 0 0 &&& 0x1F = 7 then 1 else 0) = start
    split
    · exact hdefault
    · exact hbytes _ _ _

/-- There is no space in the parameters. -/
theorem isWhitespace_buildH264SdpFmtp {b64 : Base64Engine} (h : b64.Lawful) (sps pps : List UInt8) :
    ∀ c ∈ buildH264SdpFmtp b64 sps pps, Text.isWhitespace c = false := by
  have hfront : ∀ c ∈ "level-asymmetry-allowed=1;packetization-mode=1;profile-level-id=".toList,
      Text.isWhitespace c = false := List.forall_iff_forall_mem.mp (by decide)
  have hname : ∀ c ∈ ";sprop-parameter-sets=".toList, Text.isWhitespace c = false :=
    List.forall_iff_forall_mem.mp (by decide)
  have hcomma : ∀ c ∈ ",".toList, Text.isWhitespace c = false :=
    List.forall_iff_forall_mem.mp (by decide)
  have hprofile : ∀ c ∈ (profileLevelIdFromSps sps).getD "42e01f".toList, Text.isWhitespace c =
      false :=
    fun c hc => (isPlain_profileLevelIdFromSps sps c hc).1
  have hencode : ∀ bytes, ∀ c ∈ b64.encode bytes, Text.isWhitespace c = false :=
    fun bytes c hc => (h.isPlain_encode bytes c hc).1
  unfold buildH264SdpFmtp
  simp only [List.forall_mem_append]
  exact ⟨⟨⟨⟨⟨hfront, hprofile⟩, hname⟩, hencode sps⟩, hcomma⟩, hencode pps⟩

theorem fmtpLine_ne_nil (pt : UInt8) (params : List Char) : fmtpLine pt params ≠ [] := by
  unfold fmtpLine
  exact List.append_ne_nil_of_right_ne_nil _ (List.cons_ne_nil _ _)

theorem startsFmtp_fmtpLine (pt : UInt8) (params : List Char) :
    startsFmtp pt (fmtpLine pt params) = true := by
  unfold startsFmtp fmtpLine
  exact List.isPrefixOf_iff_prefix.mpr (List.prefix_append _ _)

theorem isFmtpOf_fmtpLine (pt : UInt8) (params : List Char) :
    isFmtpOf pt (fmtpLine pt params) = true := by
  have hdecimal : decimal pt.toNat = (toString pt.toNat).toList := by
    rw [Nat.toString_eq_repr, Nat.toList_repr]
    rfl
  have hparse : parsePayloadType (decimal pt.toNat) = some pt := by
    rw [parsePayloadType, hdecimal, Text.parseUnsigned_toString pt.toNat_lt, Option.map_some,
      UInt8.ofNat_toNat]
  have hword : Text.IsWord (decimal pt.toNat) := hdecimal ▸ Text.isWord_toString pt.toNat
  have hspace : Text.isWhitespace ' ' = true := by decide
  unfold isFmtpOf fmtpLine
  rw [List.append_assoc, Text.stripPrefix_append, Option.bind_some,
    Text.splitWhitespace_append hword.1 hword.2 hspace]
  exact decide_eq_true hparse

/-! ## The answer -/

section Answer

variable {b64 : Base64Engine} {lines : List (List Char)} {pt : UInt8}

theorem newline_not_mem_patch (hb64 : b64.Lawful) (h : ∀ line ∈ lines, '\n' ∉ line)
    (f g : List Char → Bool) (sps pps : List UInt8) :
    ∀ line ∈ FirstMatch.patch f g (fmtpLine pt (buildH264SdpFmtp b64 sps pps)) lines,
        '\n' ∉ line := by
  intro line hline
  rcases FirstMatch.mem_patch hline with rfl | hline
  · exact newline_not_mem_fmtpLine pt (isWhitespace_buildH264SdpFmtp hb64 sps pps)
  · exact h line hline

theorem startsFmtp_nil (pt : UInt8) : startsFmtp pt [] = false := rfl

theorem startsRtpmap_nil (pt : UInt8) : startsRtpmap pt [] = false := rfl

theorem isFmtpOf_nil (pt : UInt8) : isFmtpOf pt [] = false := rfl

theorem exists_isH264RtpmapOf (hp : lines.findSome? h264PayloadOf = some pt) :
    ∃ line ∈ lines, isH264RtpmapOf pt line = true := by
  obtain ⟨front, line, rest, rfl, hline, -⟩ := List.findSome?_eq_some_iff.mp hp
  exact ⟨line, by simp, decide_eq_true hline⟩

/-- If the last of the lines is empty, a line is lost. -/
theorem joinSdpLines_patch_ne (hb64 : b64.Lawful) (h : ∀ line ∈ lines, '\n' ∉ line)
    (hp : lines.findSome? h264PayloadOf = some pt) (sps pps : List UInt8)
    (hlast : lines.getLast? = some []) :
    joinSdpLines (FirstMatch.patch (startsFmtp pt) (startsRtpmap pt)
      (fmtpLine pt (buildH264SdpFmtp b64 sps pps)) lines) ≠
      sdpText (patchedLines b64 pt sps pps lines) := by
  have hnew := fmtpLine_ne_nil pt (buildH264SdpFmtp b64 sps pps)
  have hlastPatch :=
    (FirstMatch.getLast?_patch hnew (startsFmtp_nil pt) (startsRtpmap_nil pt) lines).mpr hlast
  have hlines : ∀ line ∈ FirstMatch.patch (startsFmtp pt) (startsRtpmap pt)
      (fmtpLine pt (buildH264SdpFmtp b64 sps pps)) lines, '\n' ∉ line :=
    newline_not_mem_patch hb64 h (startsFmtp pt) (startsRtpmap pt) sps pps
  have hshould : ∀ line ∈ patchedLines b64 pt sps pps lines, '\n' ∉ line :=
    newline_not_mem_patch hb64 h (isFmtpOf pt) (isH264RtpmapOf pt) sps pps
  have hcount :
    (FirstMatch.patch (startsFmtp pt) (startsRtpmap pt) (fmtpLine pt (buildH264SdpFmtp b64 sps pps))
      lines).count [] = (patchedLines b64 pt sps pps lines).count [] := by
    rw [FirstMatch.count_patch hnew (startsFmtp_nil pt), patchedLines,
      FirstMatch.count_patch hnew (isFmtpOf_nil pt)]
  have hlength := FirstMatch.length_le_patch (startsFmtp pt) (startsRtpmap pt)
    (fmtpLine pt (buildH264SdpFmtp b64 sps pps)) lines
  have htwo : 2 ≤ lines.length := by
    -- the line for H.264 is not the last one
    obtain ⟨front, rfl⟩ := List.getLast?_eq_some_iff.mp hlast
    obtain ⟨line, hline, hof⟩ := exists_isH264RtpmapOf hp
    rcases List.mem_append.mp hline with hline | hline
    · have hpos := List.length_pos_of_mem hline
      rw [List.length_append, List.length_singleton]
      omega
    · rw [List.mem_singleton.mp hline] at hof
      cases hof
  generalize FirstMatch.patch (startsFmtp pt) (startsRtpmap pt)
    (fmtpLine pt (buildH264SdpFmtp b64 sps pps)) lines =
    patched at hlastPatch hlines hcount hlength
  obtain ⟨init, rfl⟩ := List.getLast?_eq_some_iff.mp hlastPatch
  have hinit : init ≠ [] := by
    rintro rfl
    rw [List.nil_append, List.length_singleton] at hlength
    omega
  rw [joinSdpLines_concat_nil hinit]
  intro hsame
  rw [sdpText_inj (fun line hline => hlines line (List.mem_append_left _ hline)) hshould] at hsame
  rw [← hsame, List.count_append] at hcount
  simp at hcount

/-- If the payload type is found, the lines are patched. -/
theorem patchAnswerSdpH264_of_found (h : ∀ line ∈ lines, '\n' ∉ line)
    (hp : lines.findSome? h264PayloadOf = some pt) (hfound : malformedFirst lines = false)
    (sps pps : List UInt8) :
    patchAnswerSdpH264 b64 (sdpText lines) sps pps =
      joinSdpLines (FirstMatch.patch (startsFmtp pt) (startsRtpmap pt)
        (fmtpLine pt (buildH264SdpFmtp b64 sps pps)) lines) := by
  rw [patchAnswerSdpH264, h264PayloadTypeFromSdp, lines_sdpText h, h264PayloadTypeLoop_eq, hfound,
    if_neg Bool.false_ne_true, hp]

/-- If it is not, nothing happens. -/
theorem patchAnswerSdpH264_of_malformed (h : ∀ line ∈ lines, '\n' ∉ line)
    (hbad : malformedFirst lines = true) (sps pps : List UInt8) :
    patchAnswerSdpH264 b64 (sdpText lines) sps pps = sdpText lines := by
  rw [patchAnswerSdpH264, h264PayloadTypeFromSdp, lines_sdpText h, h264PayloadTypeLoop_eq, hbad,
    if_pos rfl]

/-- From lines that give a payload type to H.264 the lines come out that should **exactly if** the
patch hits its line. -/
theorem patchAnswerSdpH264_iff (b64 : Base64Engine) (hb64 : b64.Lawful) (lines : List (List Char))
    (h : ∀ line ∈ lines, '\n' ∉ line) (pt : UInt8) (hp : lines.findSome? h264PayloadOf = some pt)
    (sps pps : List UInt8) :
    patchAnswerSdpH264 b64 (sdpText lines) sps pps = sdpText (patchedLines b64 pt sps pps lines) ↔
      HitsItsLine b64 pt sps pps lines := by
  have hshould : ∀ line ∈ patchedLines b64 pt sps pps lines, '\n' ∉ line :=
    newline_not_mem_patch hb64 h (isFmtpOf pt) (isH264RtpmapOf pt) sps pps
  rw [HitsItsLine]
  cases hbad : malformedFirst lines with
  | true =>
    rw [if_pos rfl, patchAnswerSdpH264_of_malformed h hbad, sdpText_inj h hshould, eq_comm,
      patchedLines]
    exact FirstMatch.patch_eq_self_iff (exists_isH264RtpmapOf hp)
  | false =>
    rw [if_neg Bool.false_ne_true, patchAnswerSdpH264_of_found h hp hbad]
    by_cases hlast : lines.getLast? = some []
    · exact iff_of_false (joinSdpLines_patch_ne hb64 h hp sps pps hlast) fun hboth => hboth.1 hlast
    · have hnew := fmtpLine_ne_nil pt (buildH264SdpFmtp b64 sps pps)
      have hlines : ∀ line ∈ FirstMatch.patch (startsFmtp pt) (startsRtpmap pt)
          (fmtpLine pt (buildH264SdpFmtp b64 sps pps)) lines, '\n' ∉ line :=
        newline_not_mem_patch hb64 h (startsFmtp pt) (startsRtpmap pt) sps pps
      obtain ⟨line, hline, -⟩ := exists_isH264RtpmapOf hp
      have hpos :=
        (List.length_pos_of_mem hline).trans_le (FirstMatch.length_le_patch (startsFmtp pt)
        (startsRtpmap pt) (fmtpLine pt (buildH264SdpFmtp b64 sps pps)) lines)
      rw [joinSdpLines_of_getLast?_ne (List.ne_nil_of_length_pos hpos) hlines
        fun hend =>
          hlast ((FirstMatch.getLast?_patch hnew (startsFmtp_nil pt)
          (startsRtpmap_nil pt) lines).mp hend),
        sdpText_inj hlines hshould, patchedLines,
        FirstMatch.patch_eq_iff (startsFmtp_fmtpLine pt _) (isFmtpOf_fmtpLine pt _)]
      exact (and_iff_right hlast).symm

end Answer

instance (b64 : Base64Engine) (pt : UInt8) (sps pps : List UInt8) (lines : List (List Char)) :
    Decidable (HitsItsLine b64 pt sps pps lines) :=
  inferInstanceAs (Decidable (if malformedFirst lines then _ else _))

/-- An answer with H.264 on 103, which has no parameters. -/
theorem patchAnswerSdpH264_103 :
    patchAnswerSdpH264 standardBase64 (sdpText ["v=0".toList, "a=rtpmap:103 H264/90000".toList])
      [0x67, 0x42, 0x00, 0x1F, 0x89, 0x8B] [0x68, 0x08, 0x07, 0x06] =
    sdpText (patchedLines standardBase64 103 [0x67, 0x42, 0x00, 0x1F, 0x89, 0x8B]
      [0x68, 0x08, 0x07, 0x06] ["v=0".toList, "a=rtpmap:103 H264/90000".toList]) :=
  (patchAnswerSdpH264_iff standardBase64 lawful_standardBase64 _
    (by decide +kernel) 103 (by decide +kernel) _ _).mpr
    (by decide +kernel)

/-- An answer with H.264 on 12 and VP8 on 126. -/
def answerLines : List (List Char) :=
  ["v=0".toList, "a=rtpmap:12 H264/90000".toList, "a=rtpmap:126 VP8/90000".toList,
    "a=fmtp:126 max-fr=30".toList]

/-- The parameters of **126** are replaced. -/
theorem not_patchAnswerSdpH264_126 :
    ¬ ∀ (lines : List (List Char)) (pt : UInt8)
      (sps pps : List UInt8), (∀ line ∈ lines, '\n' ∉ line) →
      lines.findSome? h264PayloadOf = some pt →
      patchAnswerSdpH264 standardBase64 (sdpText lines) sps pps =
          sdpText (patchedLines standardBase64 pt sps pps lines) := by
  intro hall
  have hsame := hall answerLines 12 [0x67, 0x42, 0x00, 0x1F] [0x68, 0x08]
    (by decide +kernel) (by decide +kernel)
  revert hsame
  decide +kernel

end VcpMediaServer
