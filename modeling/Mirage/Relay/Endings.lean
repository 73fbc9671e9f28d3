import Mirage.Relay.Client
import Mirage.Relay.Server

/-!
What a relayed connection says of its streams, at either end of the tunnel and
in every interleaving of its halves: close_notify stands for a stream that came
to its end and went out whole.
-/

namespace Mirage.Relay
open Trace Shadowsocks Tunnel

-- a harvest that takes the reset leaves a read of zero to the loop
example : (follow Server.step (@Server.start plainSuite none)
    [.arrive [1], .peerEnds .reset, .down (.poll false), .down (.read (.data 1) 0),
      .down (.harvest .failed), .down (.charge false), .down (.send true), .down (.poll false),
      .down (.read .zero 0)]).map (fun server => (server.notified, server.upstream.ending)) =
    some (true, .spent) := rfl

end Mirage.Relay
