import TrojanServer.AsyncIo

namespace TrojanServer.Transport

open TrojanServer.AsyncIo

inductive TransportType where
  | tcp
  | webSocket
  | grpc
  deriving DecidableEq, Repr

/-- Whether shutting down the write side leaves the read side usable. -/
def TransportType.halfClose : TransportType → Bool
  | .tcp => true
  | .webSocket | .grpc => false

/-- What a call on the wrapper `NoHalfClose` is for the transport inside: without half-close,
shutting down only flushes. -/
def NoHalfClose.forward (halfClose : Bool) : IoCall → IoCall
  | .pollShutdown result => if halfClose then .pollShutdown result else .pollFlush result
  | call => call

end TrojanServer.Transport
