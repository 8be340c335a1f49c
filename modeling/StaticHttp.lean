import StaticHttp.Bytes.Basic
import StaticHttp.Text.Utf8
import StaticHttp.Text.CaseFold
import StaticHttp.Text.Printable
import StaticHttp.Text.Quoted
import StaticHttp.Content.Hash
import StaticHttp.Content.Capacity
import StaticHttp.Content.Mime
import StaticHttp.Request.Basic
import StaticHttp.Transport.Cursor
import StaticHttp.Request.Failure
import StaticHttp.Request.Parse
import StaticHttp.Content.Entry
import StaticHttp.Content.Table
import StaticHttp.Content.Generation
import StaticHttp.Transport.Sink
import StaticHttp.Response.Status
import StaticHttp.Response.Date
import StaticHttp.Response.Basic
import StaticHttp.Server.AccessLog
import StaticHttp.Log.Basic
import StaticHttp.Files.Tree
import StaticHttp.Content.Load
import StaticHttp.Content.Cache
import StaticHttp.Content.Shared
import StaticHttp.Server.Config
import StaticHttp.Crypto.Pem
import StaticHttp.Crypto.Der
import StaticHttp.Crypto.Asn1
import StaticHttp.Crypto.Curve
import StaticHttp.Crypto.Sha512
import StaticHttp.Crypto.Edwards
import StaticHttp.Crypto.Keccak
import StaticHttp.Crypto.MlDsa
import StaticHttp.Crypto.IpAddress
import StaticHttp.Crypto.NameSyntax
import StaticHttp.Crypto.Uri
import StaticHttp.Crypto.Extensions
import StaticHttp.Crypto.Certificate
import StaticHttp.Crypto.PrivateKey
import StaticHttp.Transport.Tls
import StaticHttp.Server.Metrics
import StaticHttp.Server.State
import StaticHttp.Server.Connection
import StaticHttp.Text.Json
import StaticHttp.Server.Admin
import StaticHttp.Toml.Syntax
import StaticHttp.Toml.Scan
import StaticHttp.Toml.Parse
import StaticHttp.Toml.Number
import StaticHttp.Toml.Seen
import StaticHttp.Toml.Decode
import StaticHttp.Server.ConfigFile
import StaticHttp.Server.Logging
import StaticHttp.Server.Listen
import StaticHttp.Server.Lifecycle
import StaticHttp.Content.Watch
import StaticHttp.Command.Flags
import StaticHttp.Command.Session
import StaticHttp.Main
import StaticHttp.Proofs.Transport.Stream
import StaticHttp.Proofs.Request.Scan
import StaticHttp.Proofs.Request.Refine
import StaticHttp.Proofs.Request.TokenGrammar
import StaticHttp.Proofs.Request.Grammar
import StaticHttp.Proofs.Request.Prefix
import StaticHttp.Proofs.Request.Examined
import StaticHttp.Proofs.Request.Final
import StaticHttp.Proofs.Content.Probing
import StaticHttp.Proofs.Content.TableMap
import StaticHttp.Proofs.Server.Answer
import StaticHttp.Proofs.Content.Loaded
import StaticHttp.Proofs.Content.Generations
import StaticHttp.Proofs.Server.Shutdown
import StaticHttp.Proofs.Transport.Delivery
import StaticHttp.Proofs.Request.Limits
import StaticHttp.Proofs.Text.Encoding
import StaticHttp.Proofs.Response.Head
import StaticHttp.Proofs.Content.Walk
import StaticHttp.Proofs.Content.WellFormed
import StaticHttp.Proofs.Content.Termination
import StaticHttp.Proofs.Request.Form
import StaticHttp.Proofs.Request.Lookup
import StaticHttp.Proofs.Content.Sizing
import StaticHttp.Proofs.Transport.Machine
import StaticHttp.Proofs.Request.Program
import StaticHttp.Proofs.Request.Calls
