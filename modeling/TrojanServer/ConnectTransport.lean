import TrojanServer.ConnectClient
import TrojanServer.GrpcStream
import TrojanServer.WebSocketStream

namespace TrojanServer.ConnectTransport

open TrojanServer.AsyncIo
open TrojanServer.ConnectClient
open TrojanServer.ConnectSession
open TrojanServer.Hosted
open TrojanServer.Relay
open TrojanServer.StepMachine

section WebSocket

open TrojanServer.WebSocket
open TrojanServer.WebSocketStream (history SinkHeld)

variable {cfg : RelayConfig} {early : List UInt8} {incoming : List NextResult}
  {events : List (Hosted.Event ConnectClient.Event SinkAnswers)}
  {s : Host Session WebSocketTransport}
  {trace : Hosted.Trace ConnectClient.Event Output SinkAnswers (List SinkCall)}

/-- Over WebSocket the remote receives what the client put behind its request, in the early
data and in binary messages however it cut them, and when the relay completes it has
received all of it. -/
theorem websocket_upload (hbuffer : 0 < cfg.bufferSize) {n : Nat}
    (hrequest : Protocol.TrojanRequest.IsRequest (early ++ payloads incoming) n)
    (hrun : run (connectOn cfg .webSocket WebSocketStream.serve)
      (.start .start (withEarlyData incoming early)) events = some (s, trace)) :
    forwarded (seen (sessionTrace trace)) <+: (early ++ payloads incoming).drop n ∧
      (Completed s.session →
        forwarded (seen (sessionTrace trace)) = (early ++ payloads incoming).drop n) := by
  have hinv := onTransport_of_run hrun
  obtain ⟨inputs, htransport⟩ := hinv.transport
  obtain ⟨hstream, hall⟩ := WebSocketStream.reads_stream htransport fun entry hentry =>
    (hinv.orderly rfl hbuffer).rooms entry.1.1 (List.mem_map_of_mem hentry)
  have hreturned := hinv.returned
  rw [calls] at hreturned
  rw [hreturned] at hstream hall
  refine ⟨hinv.client.upload hstream hrequest, ?_⟩
  intro hcompleted
  obtain ⟨heof, -, m, hheaded, hforwarded⟩ := hinv.client.completed hbuffer hcompleted
  rw [hforwarded, headed_of_stream hinv.client hstream hrequest hheaded]
  exact congrArg (List.drop n) (hall (hinv.eof heof))

def sampleIncoming : List NextResult :=
  [.ready (some (.ok (.binary [7, 8]))), .pending, .ready (some (.ok .close))]

def sampleSink : SinkAnswers := ⟨.ready (.ok ()), .ok (), .ready (.ok ())⟩

/-- The request comes as early data and two bytes in a message; the remote answers with one
byte and finishes first. -/
def sampleMessages : List (Hosted.Event ConnectClient.Event SinkAnswers) :=
  [.session (.session (.read (.ok sampleHeader)) 320) [sampleSink],
    .session (.session (.connected 5 0) 320) [],
    .session (.session (.poll
      { now := 0
        up := [.pollFlush (.ready (.ok ())), .pollRead 320 (.ready (.ok [7, 8])),
          .pollWrite [7, 8] (.ready (.ok 2)), .pollFlush (.ready (.ok ())),
          .pollRead 320 .pending]
        down := [.pollFlush (.ready (.ok ())), .pollRead 320 (.ready (.ok [9])),
          .pollWrite [9] (.ready (.ok 1)), .pollFlush (.ready (.ok ())),
          .pollRead 320 (.ready (.ok [])), .pollFlush (.ready (.ok ())),
          .pollShutdown (.ready (.ok ()))] }) 320) (List.replicate 7 sampleSink),
    .session (.session (.poll
      { now := 1
        up := [.pollFlush (.ready (.ok ())), .pollRead 320 (.ready (.ok [])),
          .pollFlush (.ready (.ok ())), .pollShutdown (.ready (.ok ()))]
        down := [] }) 320) [sampleSink],
    .closeClient (.ready (.ok ())) sampleSink]

set_option maxRecDepth 4096 in
theorem websocket_upload_sample :
    ∃ s trace, run (connectOn ⟨30, 2, 5, 320, none⟩ .webSocket WebSocketStream.serve)
        (.start .start (withEarlyData sampleIncoming sampleHeader)) sampleMessages =
          some (s, trace) ∧
      forwarded (seen (sessionTrace trace)) = [7, 8] := by
  obtain ⟨s, trace, hrun, hcompleted⟩ : ∃ s trace,
      run (connectOn ⟨30, 2, 5, 320, none⟩ .webSocket WebSocketStream.serve)
        (.start .start (withEarlyData sampleIncoming sampleHeader)) sampleMessages =
          some (s, trace) ∧
      Completed s.session :=
    ⟨_, _, rfl, _, _, _, rfl, rfl, rfl⟩
  have hrequest : Protocol.TrojanRequest.IsRequest (sampleHeader ++ payloads sampleIncoming)
      sampleHeader.length :=
    ⟨by simp, _, 1, .ipv4 ⟨[1, 2, 3, 4], rfl⟩ 80, .inl rfl, trivial, List.take_left⟩
  refine ⟨s, trace, hrun, ?_⟩
  rw [(websocket_upload (by decide) hrequest hrun).2 hcompleted, List.drop_left]
  rfl

/-- Over WebSocket the client receives, as binary messages, what the remote sent, and all of it
when the relay completes.  No close goes out before the session is over, none is followed by
data, and a client that was shut down in order has been sent exactly one. -/
theorem websocket_download (hbuffer : 0 < cfg.bufferSize)
    (hrun : run (connectOn cfg .webSocket WebSocketStream.serve)
      (.start .start (withEarlyData incoming early)) events = some (s, trace))
    (hsink : SinkHeld (served trace)) :
    ∃ (binaries : List (List UInt8)) (closes : List Message),
      sent (sinkCalls (history (served trace))) = binaries.map Message.binary ++ closes ∧
      binaries.flatten <+: returnedBytes (downCalls (relayed (sessionTrace trace))) ∧
      (Completed s.session →
        binaries.flatten = returnedBytes (downCalls (relayed (sessionTrace trace)))) ∧
      (closes = [] ∨ closes = [.close]) ∧
      (s.closing = .notYet → closes = []) ∧
      (.pollShutdown (.ready (.ok ())) ∈ calls trace →
        closes = [.close] ∧ CloseFlushed (sinkCalls (history (served trace)))) := by
  have hinv := onTransport_of_run hrun
  obtain ⟨inputs, htransport⟩ := hinv.transport
  obtain ⟨binaries, closes, hresponse⟩ := WebSocketStream.writes_stream htransport hsink
  have hbytes : binaries.flatten = acceptedBytes (downCalls (relayed (sessionTrace trace))) :=
    hresponse.bytes.trans (hinv.accepted.trans hinv.client.accepted)
  refine ⟨binaries, closes, hresponse.messages, ?_, ?_, hresponse.once, ?_, ?_⟩
  · rw [hbytes]
    exact hinv.client.down
  · intro hcompleted
    rw [hbytes]
    exact (hinv.client.completed hbuffer hcompleted).2.1
  · intro hopen
    exact hresponse.opened fun entry hentry =>
      hinv.opened rfl hopen entry.1.1 (List.mem_map_of_mem hentry)
  · intro hdone
    obtain ⟨entry, hentry, heq⟩ := List.mem_map.mp hdone
    exact hresponse.closed ⟨entry, hentry, heq⟩

set_option maxRecDepth 4096 in
theorem websocket_download_sample :
    ∃ s trace, run (connectOn ⟨30, 2, 5, 320, none⟩ .webSocket WebSocketStream.serve)
        (.start .start (withEarlyData sampleIncoming sampleHeader)) sampleMessages =
          some (s, trace) ∧
      ∃ (binaries : List (List UInt8)) (closes : List Message),
        sent (sinkCalls (history (served trace))) = binaries.map Message.binary ++ closes ∧
        binaries.flatten = [9] ∧ closes = [.close] := by
  obtain ⟨s, trace, hrun, hcompleted, hsink, hbytes, hdone⟩ : ∃ s trace,
      run (connectOn ⟨30, 2, 5, 320, none⟩ .webSocket WebSocketStream.serve)
        (.start .start (withEarlyData sampleIncoming sampleHeader)) sampleMessages =
          some (s, trace) ∧
      Completed s.session ∧ SinkHeld (served trace) ∧
      returnedBytes (downCalls (relayed (sessionTrace trace))) = [9] ∧
      .pollShutdown (.ready (.ok ())) ∈ calls trace :=
    ⟨_, _, rfl, ⟨_, _, _, rfl, rfl, rfl⟩, by unfold SinkHeld; decide, rfl, by decide⟩
  obtain ⟨binaries, closes, hsent, -, hall, -, -, hclose⟩ :=
    websocket_download (by decide) hrun hsink
  exact ⟨s, trace, hrun, binaries, closes, hsent, (hall hcompleted).trans hbytes,
    (hclose hdone).1⟩

end WebSocket

section Grpc

open TrojanServer.GrpcCodec
open TrojanServer.GrpcReceive (LongestFrames arrived)
open TrojanServer.GrpcSend (H2Call Op Finished WellFormed log sent)
open TrojanServer.GrpcStream (GrpcTransport World NoReset StreamHeld readTrace sendTrace)

variable {cfg : RelayConfig} {activity : Option Bool} {m : Nat}
  {events : List (Hosted.Event ConnectClient.Event World)} {s : Host Session GrpcTransport}
  {trace : Hosted.Trace ConnectClient.Event Output World Unit}

/-- Over gRPC the remote receives what stands behind the request in the payloads of the frames
that arrived, however these were cut into chunks, and when the relay completes it has received
all of it and nothing but complete frames has arrived. -/
theorem grpc_upload (hbuffer : 0 < cfg.bufferSize) {bytes : List UInt8}
    {payloads : List (List UInt8)} {n : Nat}
    (hrun : run (connectOn cfg .grpc GrpcStream.serve) (.start .start (.start activity m)) events =
      some (s, trace))
    (hreset : NoReset (served trace))
    (hframes : LongestFrames (arrived (readTrace (served trace))) bytes payloads)
    (hrequest : Protocol.TrojanRequest.IsRequest payloads.flatten n) :
    forwarded (seen (sessionTrace trace)) <+: payloads.flatten.drop n ∧
      (Completed s.session → bytes = arrived (readTrace (served trace)) ∧
        forwarded (seen (sessionTrace trace)) = payloads.flatten.drop n) := by
  have hinv := onTransport_of_run hrun
  obtain ⟨inputs, htransport⟩ := hinv.transport
  obtain ⟨hstream, hall⟩ :=
    GrpcStream.reads_stream htransport (hinv.orderly rfl hbuffer) hreset hframes
  have hreturned := hinv.returned
  rw [calls] at hreturned
  rw [hreturned] at hstream hall
  refine ⟨hinv.client.upload hstream hrequest, ?_⟩
  intro hcompleted
  obtain ⟨heof, -, k, hheaded, hforwarded⟩ := hinv.client.completed hbuffer hcompleted
  obtain ⟨harrived, hbytes⟩ := hall (hinv.eof heof)
  refine ⟨harrived, ?_⟩
  rw [hforwarded, headed_of_stream hinv.client hstream hrequest hheaded, hbytes]

/-- The payload of the frame has a request and two bytes behind it. -/
def sampleFrame : List UInt8 := encodeGrpcMessage (sampleHeader ++ [7, 8])

/-- Headers and a frame with one byte of payload. -/
def sampleResponse : List H2Call :=
  [.sendResponse GrpcSend.responseHeaders false (.ok ()), .capacity 100,
    .sendData (encodeGrpcMessage [9]) (.ok ())]

/-- The client sends one frame, in two chunks, and ends its stream; the remote answers with one
byte. -/
def sampleFrames : List (Hosted.Event ConnectClient.Event World) :=
  [.session (.waiting 320) [⟨[.data (sampleFrame.take 6)], []⟩],
    .session (.session (.read (.ok (sampleHeader ++ [7, 8]))) 320)
      [⟨[.data (sampleFrame.drop 6), .endStream], []⟩],
    .session (.session (.connected 5 0) 320) [],
    .session (.session (.write 0 [7, 8] (.ready (.ok 2))) 320) [],
    .session (.session (.poll
      { now := 0
        up := [.pollFlush (.ready (.ok ())), .pollRead 320 (.ready (.ok [])),
          .pollFlush (.ready (.ok ())), .pollShutdown (.ready (.ok ()))]
        down := [.pollFlush (.ready (.ok ())), .pollRead 320 (.ready (.ok [9])),
          .pollWrite [9] (.ready (.ok 1)), .pollFlush (.ready (.ok ())),
          .pollRead 320 (.ready (.ok [])), .pollFlush (.ready (.ok ())),
          .pollShutdown (.ready (.ok ()))] }) 320)
      [⟨[], []⟩, ⟨[], []⟩, ⟨[], sampleResponse⟩, ⟨[], []⟩, ⟨[], []⟩, ⟨[], []⟩],
    .closeClient (.ready (.ok ())) ⟨[], [.sendTrailers GrpcSend.grpcStatus (.ok ())]⟩]

theorem longestFrames_sampleFrame :
    LongestFrames (sampleFrame ++ []) sampleFrame [sampleHeader ++ [7, 8]] := by
  refine GrpcReceive.longestFrames_of_stuck (.single ⟨isFrame_encodeGrpcMessage ?_, ?_⟩) ?_
  · decide +kernel
  · decide +kernel
  · intro frame payload hframe hin
    exact ne_nil_of_isFrame hframe.1 (List.prefix_nil.mp hin)

set_option maxRecDepth 4096 in
theorem grpc_upload_sample :
    ∃ s trace, run (connectOn ⟨30, 2, 5, 320, none⟩ .grpc GrpcStream.serve)
        (.start .start (.start none 32768)) sampleFrames = some (s, trace) ∧
      forwarded (seen (sessionTrace trace)) = [7, 8] := by
  obtain ⟨s, trace, hrun, hcompleted, hreset, harrived⟩ : ∃ s trace,
      run (connectOn ⟨30, 2, 5, 320, none⟩ .grpc GrpcStream.serve)
        (.start .start (.start none 32768)) sampleFrames = some (s, trace) ∧
      Completed s.session ∧ NoReset (served trace) ∧
      arrived (readTrace (served trace)) = sampleFrame ++ [] :=
    ⟨_, _, rfl, ⟨_, _, _, rfl, rfl, rfl⟩, by simp [NoReset, served], rfl⟩
  have hrequest : Protocol.TrojanRequest.IsRequest [sampleHeader ++ [7, 8]].flatten
      sampleHeader.length :=
    ⟨by simp, _, 1, .ipv4 ⟨[1, 2, 3, 4], rfl⟩ 80, .inl rfl, trivial, List.take_left⟩
  refine ⟨s, trace, hrun, ?_⟩
  rw [((grpc_upload (by decide) hrun hreset (harrived ▸ longestFrames_sampleFrame)
    hrequest).2 hcompleted).2, List.flatten_singleton, List.drop_left]

/-- Over gRPC the frames given to the stream are those of slices that make up what the remote
sent, and all of it when the relay completes.  The response is not ended before the session is
over, and once the client was shut down in order it is complete: headers, the frames and
trailers, with nothing left unsent. -/
theorem grpc_download (hbuffer : 0 < cfg.bufferSize) (hmin : 1 ≤ m) (hmax : m ≤ 4 * 1024 * 1024)
    (hrun : run (connectOn cfg .grpc GrpcStream.serve) (.start .start (.start activity m)) events =
      some (s, trace))
    (hheld : StreamHeld (served trace)) :
    ∃ payloads : List (List UInt8), ∃ response : List Op,
      response = log (sendTrace (served trace)) ∧ WellFormed response ∧
      sent response <+: payloads.flatMap encodeGrpcMessage ∧
      payloads.flatten <+: returnedBytes (downCalls (relayed (sessionTrace trace))) ∧
      (Completed s.session →
        payloads.flatten = returnedBytes (downCalls (relayed (sessionTrace trace)))) ∧
      (s.closing = .notYet → .trailers ∉ response ∧ .headers true ∉ response) ∧
      (.pollShutdown (.ready (.ok ())) ∈ calls trace → Finished response ∧
        FrameDecoding.drain decodeFrame (sent response) = ⟨payloads, [], none⟩) := by
  have hinv := onTransport_of_run hrun
  obtain ⟨inputs, htransport⟩ := hinv.transport
  obtain ⟨payloads, response, hresponse⟩ :=
    GrpcStream.writes_stream hmin hmax htransport (hinv.orderly rfl hbuffer) hheld
  have hbytes : payloads.flatten = acceptedBytes (downCalls (relayed (sessionTrace trace))) :=
    hresponse.bytes.trans (hinv.accepted.trans hinv.client.accepted)
  refine ⟨payloads, response, hresponse.put, hresponse.wellFormed, hresponse.frames, ?_, ?_, ?_, ?_⟩
  · rw [hbytes]
    exact hinv.client.down
  · intro hcompleted
    rw [hbytes]
    exact (hinv.client.completed hbuffer hcompleted).2.1
  · intro hopen
    exact hresponse.opened fun entry hentry =>
      hinv.opened rfl hopen entry.1.1 (List.mem_map_of_mem hentry)
  · intro hdone
    obtain ⟨entry, hentry, heq⟩ := List.mem_map.mp hdone
    exact hresponse.closed ⟨entry, hentry, heq⟩

set_option maxRecDepth 4096 in
theorem grpc_download_sample :
    ∃ s trace, run (connectOn ⟨30, 2, 5, 320, none⟩ .grpc GrpcStream.serve)
        (.start .start (.start none 32768)) sampleFrames = some (s, trace) ∧
      Finished (log (sendTrace (served trace))) ∧
      ∃ payloads, payloads.flatten = [9] ∧
        FrameDecoding.drain decodeFrame (sent (log (sendTrace (served trace)))) =
          ⟨payloads, [], none⟩ := by
  obtain ⟨s, trace, hrun, hcompleted, hheld, hbytes, hdone⟩ : ∃ s trace,
      run (connectOn ⟨30, 2, 5, 320, none⟩ .grpc GrpcStream.serve)
        (.start .start (.start none 32768)) sampleFrames = some (s, trace) ∧
      Completed s.session ∧ StreamHeld (served trace) ∧
      returnedBytes (downCalls (relayed (sessionTrace trace))) = [9] ∧
      .pollShutdown (.ready (.ok ())) ∈ calls trace :=
    ⟨_, _, rfl, ⟨_, _, _, rfl, rfl, rfl⟩, by unfold StreamHeld; decide, rfl, by decide⟩
  obtain ⟨payloads, response, rfl, -, -, -, hall, -, hend⟩ :=
    grpc_download (by decide) (by decide) (by decide) hrun hheld
  exact ⟨s, trace, hrun, (hend hdone).1, payloads, (hall hcompleted).trans hbytes,
    (hend hdone).2⟩

end Grpc

end TrojanServer.ConnectTransport
