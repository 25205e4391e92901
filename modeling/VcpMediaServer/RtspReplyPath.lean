import VcpMediaServer.Base64
import VcpMediaServer.RtspRequestText

/-!
# The path of a reply

`process_request` does not send the text that `process_rtsp_request` returns. It parses it, and
writes what it has parsed; where the text cannot be parsed it sends an internal error instead.

* `Messages.RtspResponse.survives_path` — a clean response survives this, and every response to a
  request **is clean**: the internal error is never sent.
-/

namespace VcpMediaServer

open Text

/-- Libraries that know the letters of ASCII, and no URL. -/
def asciiEnv : RequestEnv where
  toLowercase := List.map Char.toLower
  toUppercase := List.map Char.toUpper
  urlPath _ := none
  b64 := ⟨Base64.encode, Base64.decode⟩
  peerAddr := "127.0.0.1:50000"
  newId := "1"
  udpPorts := none
  built := .latestFirst
  sent := .latestFirst

theorem sound_asciiEnv : asciiEnv.Sound where
  path _ _ _ h := by cases h
  newId := by decide

namespace Messages.RtspResponse

/-- Every clean response **survives** being written and parsed: what comes back has the same status
code, reason, version, headers and body. Every request is answered with a clean one, and what is
sent is that one as it came back. (A text of Rust has less than `USIZE_VALUES` bytes.) -/
theorem survives_path :
    (∀ (r : RtspResponse) (entries : List (Sigma fun _ : List Char => List Char)), r.Clean →
      entries.Perm r.headers.entries → byteLen (r.toText entries) < USIZE_VALUES →
        ∃ r', parse (r.toText entries) = some (some r') ∧ r.SameAs r') ∧
    ∀ (env : RequestEnv) (m : StreamManager) (ss : RtspServerSession) (data : List UInt8),
      env.Sound → ss.session.Named →
        ∃ m' session' r, Checked.buildResponse env m ss data = some (m', session', r) ∧ r.Clean ∧
          session'.Named ∧
          (byteLen (r.written env.built) < USIZE_VALUES →
            ∃ r', parse (r.written env.built) = some (some r') ∧ r.SameAs r' ∧
              Checked.processRequest env m ss data =
                some (m', { ss with session := session' }, r'.written env.sent)) := by
  refine ⟨fun r entries h hentries hfit => parse_toText h hentries hfit, ?_⟩
  intro env m ss data henv hsession
  obtain ⟨req, r, hbuild, hnamed, hclean⟩ := Checked.exists_buildResponse henv hsession m data
  exact ⟨_, _, r, hbuild, hclean, hnamed, Checked.processRequest_eq hbuild hclean⟩

/-- The streams, with one that is described. -/
def describedManager : StreamManager := (StreamManager.new.createStream "live" .push .rtsp none).1

/-- A request for its description. -/
def describeLive : List UInt8 :=
  "DESCRIBE rtsp://h:554/live RTSP/1.0\r\nCSeq: 2\r\n\r\n".toUTF8.toList

/-- The sample survives, and so does the description of a stream, with its body. -/
theorem survives_path_describe :
    (∃ r', parse (sampleReply.toText sampleReply.headers.entries) = some (some r') ∧
      sampleReply.SameAs r') ∧
      ∃ m' session' r r', Checked.buildResponse asciiEnv describedManager .new describeLive =
        some (m', session', r) ∧
        r.statusCode = 200 ∧ r.body.isSome ∧ parse (r.written asciiEnv.built) = some (some r') ∧
          r.SameAs r' ∧
          Checked.processRequest asciiEnv describedManager .new describeLive =
            some (m', { RtspServerSession.new with session := session' },
                r'.written asciiEnv.sent) := by
  refine ⟨survives_path.1 _ _ clean_sampleReply (List.Perm.refl _) (by decide), ?_⟩
  obtain ⟨m', session', r, hbuild, -, -, hsend⟩ :=
    survives_path.2 asciiEnv describedManager .new describeLive sound_asciiEnv RtspSession.named_new
  have hbuilt : ∀ result ∈ Checked.buildResponse asciiEnv describedManager .new describeLive,
      byteLen (result.2.2.written asciiEnv.built) < USIZE_VALUES ∧ result.2.2.statusCode = 200 ∧
        result.2.2.body.isSome = true := by decide +kernel
  obtain ⟨hfit, hstatus, hbody⟩ := hbuilt _ hbuild
  obtain ⟨r', hparse, hsame, hsent⟩ := hsend hfit
  exact ⟨m', session', r, r', hbuild, hstatus, hbody, hparse, hsame, hsent⟩

end Messages.RtspResponse

end VcpMediaServer
