import Mirage.Lib.FirstMatch
import Mirage.Router.Engine
import Mirage.Router.Tables
import Mirage.Router.Match
import Mirage.Router.Seen
import Mirage.Router.FastPath
import Mirage.Router.FirstRule
import Mirage.Router.DirectPath
import Mirage.Auth.HelloAuth
import Mirage.Auth.Replay
import Mirage.Auth.Rollback
import Mirage.Auth.Revocation
import Mirage.Tunnel.Cipher
import Mirage.Tunnel.Aead
import Mirage.Tunnel.RoundTrip
import Mirage.Lib.Duplex
import Mirage.Tunnel.Agreement
import Mirage.Dns.Wire
import Mirage.Dns.Keys
import Mirage.Dns.Cache
import Mirage.Dns.Faithful
import Mirage.Dns.FakeFile
import Mirage.Shadowsocks.Stream
import Mirage.Relay.Server
import Mirage.Relay.Client
import Mirage.Relay.Endings
import Mirage.Tunnel.Nonces
import Mirage.Udp.Mux
import Mirage.Lib.Framing
import Mirage.Lib.NumberText
import Mirage.Dns.FakeIp
import Mirage.Lib.Threads
import Mirage.Quota.Calendar
import Mirage.Quota.Handle
import Mirage.Quota.Enforcement
import Mirage.Quota.Usage
import Mirage.Egress.ServerRouter
import Mirage.Egress.FailClosed
import Mirage.Auth.Credentials
import Mirage.Lib.Notify
import Mirage.Pool.Warm
import Mirage.Pool.WakeUp
import Mirage.Pool.Capacity
import Mirage.Shadowsocks.Writer
import Mirage.Lib.Meter
import Mirage.Rate.Window
import Mirage.Rate.PerIp
import Mirage.Dns.Prefetch
import Mirage.Rate.Bucket
import Mirage.Lib.Rounding
import Mirage.Rate.Limiter
import Mirage.Dns.Singleflight
import Mirage.Lib.Dependency
import Mirage.Lib.Rounds
import Mirage.Outbound.Construction
import Mirage.Outbound.Contract
import Mirage.Udp.Transparent
import Mirage.Udp.FlowTable
import Mirage.Kernel.DirectCidr
import Mirage.Kernel.Headers
import Mirage.Dns.WireName
import Mirage.Kernel.DnsXdp
import Mirage.Api.Lockout
import Mirage.Quic.Dial
import Mirage.Lib.Json
import Mirage.Api.UserOps
import Mirage.Api.ConfigLock
import Mirage.Kernel.FakeipCache
import Mirage.Kernel.DnsReply
import Mirage.Kernel.TcDivert
import Mirage.Kernel.TcpOptions
import Mirage.Kernel.MssClamp
import Mirage.Kernel.Rewriting
import Mirage.Lib.Gregorian
import Mirage.Quota.Period
import Mirage.Dns.Answers
import Mirage.Dns.Ttl
import Mirage.Lib.Vectors
import Mirage.Tls.Record
import Mirage.Tls.ServerHello
import Mirage.Tls.Template
import Mirage.Lib.Shapes
import Mirage.Tls.Builders
import Mirage.Egress.Translation
import Mirage.Egress.Reuse
import Mirage.Lib.Protobuf
import Mirage.Geo.Dat
import Mirage.Geo.Loaders
import Mirage.Geo.Conforming
import Mirage.Geo.Updater
import Mirage.Geo.Cycles
import Mirage.Reload.Build
import Mirage.Reload.Watcher
import Mirage.Handshake.ClientHello
import Mirage.Lib.Calls
import Mirage.Handshake.Limiters
import Mirage.Handshake.Admission
import Mirage.Pool.Health
import Mirage.Pool.HealthHistory
import Mirage.Pool.Penalty
import Mirage.Lib.Cut
import Mirage.Node.Uri
import Mirage.Node.UriLaws
import Mirage.Lib.Adapter
import Mirage.Outbound.Streams
import Mirage.Lib.Ipv6Text
import Mirage.Shadowsocks.Address
import Mirage.Shadowsocks.Request
import Mirage.Lib.Buffer
import Mirage.Quic.Obfs
import Mirage.Config.Changes
import Mirage.Dns.DomainMatch
import Mirage.Dns.FakeTable
import Mirage.Tunnel.Setup
import Mirage.Quota.Rebuild
import Mirage.Quota.Registry
import Mirage.Quota.Ledger
import Mirage.Config.Soundness
import Mirage.Config.Editing
import Mirage.Config.Refusals
import Mirage.Config.Session
import Mirage.Outbound.Graph
import Mirage.Outbound.Manager
import Mirage.Router.Rule
import Mirage.Shadowsocks.Reader
import Mirage.Lib.TwoWay
import Mirage.Lib.AddressPrefix
import Mirage.Lib.Assoc
import Mirage.Lib.PrefixTrie
import Mirage.Lib.JsonEq
import Mirage.Lib.KeywordScan
import Mirage.Lib.Checksum
import Mirage.Lib.Text
import Mirage.Lib.Trace
import Mirage.Lib.Tally
import Mirage.Lib.Word
import Mirage.Lib.Lines
import Mirage.Lib.Programs
import Mirage.Wg.Ports
import Mirage.Wg.Smoltcp
import Mirage.Wg.Stream
import Mirage.Wg.Handles
import Mirage.Wg.Faith
import Mirage.Relay.Socket
import Mirage.Lib.Utf8
import Mirage.Sniff.ServerName
import Mirage.Sniff.HttpHost
import Mirage.HttpProxy.Request
import Mirage.HttpProxy.Forms
import Mirage.Lib.Occurrence
import Mirage.Resolver.Messages
import Mirage.Resolver.Genuine
import Mirage.Udp.PerFlow
import Mirage.Lib.Places
import Mirage.Monitor.LogRotation
import Mirage.Monitor.Rotation
import Mirage.Relay.Bidirectional
import Mirage.Lib.Wheel
import Mirage.Quic.AckStats
import Mirage.Quic.Erasure
import Mirage.Lib.Bounded
import Mirage.Udp.Sessions
import Mirage.Rate.Brutal
import Mirage.Relay.IdleTimeout
import Mirage.Resolver.Walkers
import Mirage.Outbound.Selection
import Mirage.Outbound.Reach
import Mirage.Lib.Turns
import Mirage.Outbound.Turns
import Mirage.Outbound.Queries
import Mirage.Relay.Splice
import Mirage.Lib.DepthFirst
import Mirage.Outbound.CycleCheck
import Mirage.Udp.Isolation
import Mirage.Udp.Shared
import Mirage.Dns.StaticHosts
import Mirage.Resolver.KeepWarm
import Mirage.Lib.Exchange
import Mirage.Socks.Handshake
import Mirage.Outbound.Checked
import Mirage.Udp.Attended
import Mirage.Udp.Uplinks
import Mirage.Udp.Metering
import Mirage.Udp.Accounting
import Mirage.Egress.Filter
import Mirage.Egress.Dialling
