import TrojanServer.ConnectTransport
import TrojanServer.UdpClient

namespace TrojanServer.UdpTransport

open TrojanServer.AsyncIo
open TrojanServer.FrameDecoding
open TrojanServer.Hosted
open TrojanServer.Protocol
open TrojanServer.Protocol.TrojanUdpPacket (decodeZerocopy wire)
open TrojanServer.StepMachine
open TrojanServer.UdpClient
open TrojanServer.UdpSession

variable {H : Type} [DecidableEq H] {w : World H} {bufferSize : Nat}

section WebSocket

open TrojanServer.WebSocket
open TrojanServer.WebSocketStream (history SinkHeld)

variable {early : List UInt8} {incoming : List NextResult}
  {events : List (Hosted.Event UdpClient.Event SinkAnswers)}
  {s : Host (Phase H) WebSocketTransport}
  {trace : Hosted.Trace UdpClient.Event (Output H) SinkAnswers (List SinkCall)}

def sampleHeader : List UInt8 :=
  TrojanRequest.header (List.Vector.replicate 56 97) 3 (.ipv4 (List.Vector.replicate 4 1) 53)

def samplePacket : TrojanUdpPacket := ⟨.ipv4 (List.Vector.replicate 4 1) 53, [7]⟩

def sampleIncoming : List NextResult :=
  [.ready (some (.ok (.binary (samplePacket.wire.take 5)))),
    .ready (some (.ok (.binary (samplePacket.wire.drop 5)))), .pending,
    .ready (some (.ok .close))]

def sampleReply : UdpSession.Event := .reply (.ok ([9], ⟨"a", 53, none⟩)) (.ok ()) 1

def sampleAnswer : TrojanUdpPacket := ⟨.domain "a" 53, [9]⟩

/-- The request comes as early data and a datagram in two messages; the outbound sends one back
and the client closes its side. -/
def sampleMessages : List (Hosted.Event UdpClient.Event SinkAnswers) :=
  [.session (.read (.ok sampleHeader) 320) [ConnectTransport.sampleSink],
    .session .associate [],
    .session (.round (.read (.ok (samplePacket.wire.take 5))) 8192 [])
      [ConnectTransport.sampleSink],
    .session (.round (.read (.ok (samplePacket.wire.drop 5))) 8192 [])
      [ConnectTransport.sampleSink],
    .session (.waiting 8192) [ConnectTransport.sampleSink],
    .session (.round sampleReply 0
        [.pollWrite sampleAnswer.wire (.ready (.ok sampleAnswer.wire.length)),
          .pollFlush (.ready (.ok ()))])
      [ConnectTransport.sampleSink, ConnectTransport.sampleSink],
    .session (.round (.read (.ok [])) 8192 []) [ConnectTransport.sampleSink],
    .closeClient (.ready (.ok ())) ConnectTransport.sampleSink]

/-- Over WebSocket the client receives, as binary messages, the datagrams that count as
delivered, each in one piece and in order.  Only a write that fails leaves it with the beginning
of another; as long as the session goes on, the last thing the sink did was to flush. -/
theorem websocket_downlink
    (hrun : run (associateOn w bufferSize WebSocketStream.serve)
      (.start (start H) (withEarlyData incoming early)) events = some (s, trace))
    (hsink : SinkHeld (served trace)) :
    ∃ (binaries : List (List UInt8)) (closes : List Message) (cut : List UInt8),
      sent (sinkCalls (history (served trace))) = binaries.map Message.binary ++ closes ∧
      binaries.flatten = (delivered (rounds (sessionTrace trace))).flatMap wire ++ cut ∧
      (∃ datagram, cut <+: wire datagram) ∧
      (¬ Ended s.session .responseFailed → cut = []) ∧
      (closes = [] ∨ closes = [.close]) ∧
      (s.closing = .notYet → closes = [] ∧ (¬ Ended s.session .responseFailed →
        ∀ call, (sinkCalls (history (served trace))).getLast? = some call →
          ∃ result, call = .pollFlush result ∧ WebSocket.Flushed result)) ∧
      (.pollShutdown (.ready (.ok ())) ∈ calls trace →
        closes = [.close] ∧ CloseFlushed (sinkCalls (history (served trace)))) := by
  have hinv := onTransport_of_run hrun
  obtain ⟨inputs, htransport⟩ := hinv.transport
  obtain ⟨binaries, closes, hresponse⟩ := WebSocketStream.writes_stream htransport hsink
  obtain ⟨cut, hbytes, hpart, hrunning⟩ := hinv.client.downlink
  refine ⟨binaries, closes, cut, hresponse.messages,
    hresponse.bytes.trans (hinv.accepted.trans hbytes), hpart, fun hgoes => (hrunning hgoes).1,
    hresponse.once, ?_, ?_⟩
  · intro hopen
    have hmade := hinv.opened hopen
    refine ⟨hresponse.opened fun entry hentry => ?_, fun hgoes => hresponse.flushed ?_⟩
    · exact hinv.client.opened entry.1.1 (hmade ▸ List.mem_map_of_mem hentry)
    · rw [calls] at hmade
      rw [hmade]
      exact (hrunning hgoes).2
  · intro hdone
    obtain ⟨entry, hentry, heq⟩ := List.mem_map.mp hdone
    exact hresponse.closed ⟨entry, hentry, heq⟩

set_option maxRecDepth 4096 in
theorem websocket_downlink_sample :
    ∃ s trace, run (associateOn directWorld 320 WebSocketStream.serve)
        (.start (start Unit) (withEarlyData sampleIncoming sampleHeader)) sampleMessages =
          some (s, trace) ∧
      ∃ (binaries : List (List UInt8)),
        sent (sinkCalls (history (served trace))) = binaries.map Message.binary ++ [.close] ∧
        binaries.flatten = sampleAnswer.wire := by
  obtain ⟨s, trace, hrun, hgoes, hsink, hdelivered, hdone⟩ : ∃ s trace,
      run (associateOn directWorld 320 WebSocketStream.serve)
        (.start (start Unit) (withEarlyData sampleIncoming sampleHeader)) sampleMessages =
          some (s, trace) ∧
      ¬ Ended s.session .responseFailed ∧ SinkHeld (served trace) ∧
      delivered (rounds (sessionTrace trace)) = [sampleAnswer] ∧
      .pollShutdown (.ready (.ok ())) ∈ calls trace :=
    ⟨_, _, rfl, by rintro ⟨_, ⟨⟩, ⟨⟩⟩, by unfold SinkHeld; decide, by rfl, by decide⟩
  obtain ⟨binaries, closes, cut, hsent, hbytes, -, hcut, -, -, hclose⟩ :=
    websocket_downlink hrun hsink
  refine ⟨s, trace, hrun, binaries, ?_, ?_⟩
  · rw [hsent, (hclose hdone).1]
  · rw [hbytes, hcut hgoes, hdelivered]
    simp

end WebSocket

section Grpc

open TrojanServer.GrpcCodec
open TrojanServer.GrpcReceive (LongestFrames arrived)
open TrojanServer.GrpcSend (H2Call Op Finished WellFormed log sent)
open TrojanServer.GrpcStream (GrpcTransport NoReset StreamHeld readTrace sendTrace)

variable {activity : Option Bool} {m : Nat}
  {events : List (Hosted.Event UdpClient.Event GrpcStream.World)}
  {s : Host (Phase H) GrpcTransport}
  {trace : Hosted.Trace UdpClient.Event (Output H) GrpcStream.World Unit}

/-- The payload of the frame has a request and a datagram behind it. -/
def sampleFrame : List UInt8 := encodeGrpcMessage (sampleHeader ++ samplePacket.wire)

def sampleResponse : List H2Call :=
  [.sendResponse GrpcSend.responseHeaders false (.ok ()), .capacity 100,
    .sendData (encodeGrpcMessage sampleAnswer.wire) (.ok ())]

/-- The client sends one frame and ends its stream; the outbound sends one datagram back. -/
def sampleFrames : List (Hosted.Event UdpClient.Event GrpcStream.World) :=
  [.session (.waiting 320) [⟨[.data (sampleFrame.take 6)], []⟩],
    .session (.read (.ok (sampleHeader ++ samplePacket.wire)) 320)
      [⟨[.data (sampleFrame.drop 6), .endStream], []⟩],
    .session .associate [],
    .session (.round .buffered 0 []) [],
    .session (.round sampleReply 0
        [.pollWrite sampleAnswer.wire (.ready (.ok sampleAnswer.wire.length)),
          .pollFlush (.ready (.ok ()))])
      [⟨[], sampleResponse⟩, ⟨[], []⟩],
    .session (.round (.read (.ok [])) 8192 []) [⟨[], []⟩],
    .closeClient (.ready (.ok ())) ⟨[], [.sendTrailers GrpcSend.grpcStatus (.ok ())]⟩]

theorem longestFrames_sampleFrame :
    LongestFrames (sampleFrame ++ []) sampleFrame [sampleHeader ++ samplePacket.wire] := by
  refine GrpcReceive.longestFrames_of_stuck (.single ⟨isFrame_encodeGrpcMessage ?_, ?_⟩) ?_
  · decide +kernel
  · decide +kernel
  · intro frame payload hframe hin
    exact ne_nil_of_isFrame hframe.1 (List.prefix_nil.mp hin)

/-- Over gRPC the client receives, in frames, the datagrams that count as delivered, in order,
and as long as the session goes on nothing of them is left in the sender: what is on the stream
decodes to them.  Only a write that fails leaves the beginning of another. -/
theorem grpc_downlink (hbuffer : 0 < bufferSize) (hmin : 1 ≤ m) (hmax : m ≤ 4 * 1024 * 1024)
    (hrun : run (associateOn w bufferSize GrpcStream.serve)
      (.start (start H) (.start activity m)) events = some (s, trace))
    (hheld : StreamHeld (served trace)) :
    ∃ (payloads : List (List UInt8)) (response : List Op) (cut : List UInt8),
      response = log (sendTrace (served trace)) ∧ WellFormed response ∧
      sent response <+: payloads.flatMap encodeGrpcMessage ∧
      payloads.flatten = (delivered (rounds (sessionTrace trace))).flatMap wire ++ cut ∧
      (∃ datagram, cut <+: wire datagram) ∧
      (¬ Ended s.session .responseFailed → cut = []) ∧
      (s.closing = .notYet → .trailers ∉ response ∧ .headers true ∉ response ∧
        (¬ Ended s.session .responseFailed →
          drain decodeFrame (sent response) = ⟨payloads, [], none⟩)) ∧
      (.pollShutdown (.ready (.ok ())) ∈ calls trace → Finished response ∧
        drain decodeFrame (sent response) = ⟨payloads, [], none⟩) := by
  have hinv := onTransport_of_run hrun
  obtain ⟨inputs, htransport⟩ := hinv.transport
  obtain ⟨payloads, response, hresponse⟩ :=
    GrpcStream.writes_stream hmin hmax htransport (hinv.orderly hbuffer) hheld
  obtain ⟨cut, hbytes, hpart, hrunning⟩ := hinv.client.downlink
  refine ⟨payloads, response, cut, hresponse.put, hresponse.wellFormed, hresponse.frames,
    hresponse.bytes.trans (hinv.accepted.trans hbytes), hpart, fun hgoes => (hrunning hgoes).1,
    ?_, ?_⟩
  · intro hopen
    have hmade := hinv.opened hopen
    obtain ⟨htrailers, hheaders⟩ := hresponse.opened fun entry hentry =>
      hinv.client.opened entry.1.1 (hmade ▸ List.mem_map_of_mem hentry)
    refine ⟨htrailers, hheaders, fun hgoes => hresponse.flushed ?_⟩
    rw [calls] at hmade
    rw [hmade]
    exact (hrunning hgoes).2
  · intro hdone
    obtain ⟨entry, hentry, heq⟩ := List.mem_map.mp hdone
    exact hresponse.closed ⟨entry, hentry, heq⟩

set_option maxRecDepth 4096 in
theorem grpc_downlink_sample :
    ∃ s trace, run (associateOn directWorld 320 GrpcStream.serve)
        (.start (start Unit) (.start none 32768)) sampleFrames = some (s, trace) ∧
      Finished (log (sendTrace (served trace))) ∧
      ∃ payloads, payloads.flatten = sampleAnswer.wire ∧
        drain decodeFrame (sent (log (sendTrace (served trace)))) = ⟨payloads, [], none⟩ := by
  obtain ⟨s, trace, hrun, hgoes, hheld, hdelivered, hdone⟩ : ∃ s trace,
      run (associateOn directWorld 320 GrpcStream.serve)
        (.start (start Unit) (.start none 32768)) sampleFrames = some (s, trace) ∧
      ¬ Ended s.session .responseFailed ∧ StreamHeld (served trace) ∧
      delivered (rounds (sessionTrace trace)) = [sampleAnswer] ∧
      .pollShutdown (.ready (.ok ())) ∈ calls trace :=
    ⟨_, _, rfl, by rintro ⟨_, ⟨⟩, ⟨⟩⟩, by unfold StreamHeld; decide, by rfl, by decide⟩
  obtain ⟨payloads, response, cut, rfl, -, -, hbytes, -, hcut, -, hend⟩ :=
    grpc_downlink (by decide) (by decide) (by decide) hrun hheld
  refine ⟨s, trace, hrun, (hend hdone).1, payloads, ?_, (hend hdone).2⟩
  rw [hbytes, hcut hgoes, hdelivered]
  simp

end Grpc

end TrojanServer.UdpTransport
