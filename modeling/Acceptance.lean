import Acceptance.Base64
import Acceptance.Call
import Acceptance.Cleanup
import Acceptance.Clock
import Acceptance.Cluster.Client
import Acceptance.Cluster.Fault
import Acceptance.Cluster.Log
import Acceptance.Cluster.Path
import Acceptance.Cluster.Pod
import Acceptance.Cluster.Resource
import Acceptance.Cluster.Schema
import Acceptance.Cluster.Secret
import Acceptance.Cluster.Timestamp
import Acceptance.Collaborators
import Acceptance.Command
import Acceptance.CommandLine.Flag
import Acceptance.CommandLine.Reader
import Acceptance.Credentials
import Acceptance.Decimal.Nearest
import Acceptance.Decimal.Shortest
import Acceptance.Dict
import Acceptance.Duration
import Acceptance.Error
import Acceptance.Files
import Acceptance.Http
import Acceptance.Http.Form
import Acceptance.Http.Status
import Acceptance.Identity.Client
import Acceptance.ImagePull
import Acceptance.Instant
import Acceptance.JobStatus
import Acceptance.Json
import Acceptance.Json.Printer
import Acceptance.Json.Reader
import Acceptance.Json.Record
import Acceptance.Kubeconfig
import Acceptance.LocalRunner
import Acceptance.LogFilter
import Acceptance.Main
import Acceptance.Observe
import Acceptance.Password
import Acceptance.Procedure
import Acceptance.Program
import Acceptance.Proofs.Accounting
import Acceptance.Proofs.Agreement
import Acceptance.Proofs.Balance
import Acceptance.Proofs.Base64
import Acceptance.Proofs.Buffers
import Acceptance.Proofs.Cancellation
import Acceptance.Proofs.Cleanup
import Acceptance.Proofs.Clock
import Acceptance.Proofs.Collisions
import Acceptance.Proofs.Concurrent
import Acceptance.Proofs.Conditions
import Acceptance.Proofs.Container
import Acceptance.Proofs.Courses
import Acceptance.Proofs.Deadlines
import Acceptance.Proofs.Delivery
import Acceptance.Proofs.Descriptor
import Acceptance.Proofs.Dictionaries
import Acceptance.Proofs.Durations
import Acceptance.Proofs.Endpoint
import Acceptance.Proofs.Ends
import Acceptance.Proofs.Escapes
import Acceptance.Proofs.Faults
import Acceptance.Proofs.Following
import Acceptance.Proofs.JsonText
import Acceptance.Proofs.Labels
import Acceptance.Proofs.Likeness
import Acceptance.Proofs.Lines
import Acceptance.Proofs.LongerWait
import Acceptance.Proofs.Manifest
import Acceptance.Proofs.Misconfigured
import Acceptance.Proofs.Modes
import Acceptance.Proofs.Observation
import Acceptance.Proofs.Order
import Acceptance.Proofs.Origin
import Acceptance.Proofs.Output
import Acceptance.Proofs.PodStart
import Acceptance.Proofs.Prompt
import Acceptance.Proofs.Provider
import Acceptance.Proofs.ProviderUrl
import Acceptance.Proofs.Provision
import Acceptance.Proofs.Recall
import Acceptance.Proofs.Record
import Acceptance.Proofs.Removal
import Acceptance.Proofs.Reporting
import Acceptance.Proofs.Run
import Acceptance.Proofs.Sampling
import Acceptance.Proofs.Schedule
import Acceptance.Proofs.Schema
import Acceptance.Proofs.Secrecy
import Acceptance.Proofs.Secrets
import Acceptance.Proofs.Session
import Acceptance.Proofs.Stores
import Acceptance.Proofs.Strangers
import Acceptance.Proofs.Succession
import Acceptance.Proofs.SuiteConfig
import Acceptance.Proofs.SuiteStart
import Acceptance.Proofs.Toml.Assembly
import Acceptance.Proofs.Toml.Reader
import Acceptance.Proofs.Toml.RoundTrip
import Acceptance.Proofs.Transcript
import Acceptance.Proofs.Transient
import Acceptance.Proofs.Trimming
import Acceptance.Proofs.Turns
import Acceptance.Proofs.Uncancelled
import Acceptance.Proofs.UrlPath
import Acceptance.Proofs.UrlReading
import Acceptance.Proofs.Usernames
import Acceptance.Proofs.Utf8
import Acceptance.Proofs.Verdict
import Acceptance.Proofs.Wait
import Acceptance.Proofs.Wire
import Acceptance.Provision
import Acceptance.ResourceNames
import Acceptance.Run
import Acceptance.Session
import Acceptance.Site
import Acceptance.Site.Form
import Acceptance.Site.Manifest
import Acceptance.SuiteConfig
import Acceptance.TestCommand
import Acceptance.TestJob
import Acceptance.Text.Blank
import Acceptance.Text.Printable
import Acceptance.Text.Quoted
import Acceptance.Text.Split
import Acceptance.Text.Utf8
import Acceptance.Toml
import Acceptance.Url
import Acceptance.Url.Escape
import Acceptance.Url.Host
import Acceptance.Url.Parser
import Acceptance.Url.Punycode
import Acceptance.Wait
import Acceptance.Warning
import Acceptance.Yaml
import Acceptance.Yaml.Node
import Acceptance.Yaml.Scalar
import Acceptance.Yaml.Source
import Acceptance.Yaml.Token
import Acceptance.Yaml.Token.Lexer
import Acceptance.Yaml.Token.Scalar
import Acceptance.Yaml.Token.Tag
