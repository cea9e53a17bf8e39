import CliMetadata.Assembly
import CliMetadata.Assembly.Names
import CliMetadata.Assembly.Nesting
import CliMetadata.Assembly.Ownership
import CliMetadata.Attribute.Decoder
import CliMetadata.Attribute.Value
import CliMetadata.Binding.Attributes
import CliMetadata.Binding.Client
import CliMetadata.Binding.Definition
import CliMetadata.Binding.Diagnostic
import CliMetadata.Binding.Entity
import CliMetadata.Binding.GenericParam
import CliMetadata.Binding.Inheritance
import CliMetadata.Binding.Kind
import CliMetadata.Binding.Lifetime
import CliMetadata.Binding.Lookup
import CliMetadata.Binding.Member
import CliMetadata.Binding.MemberReference
import CliMetadata.Binding.Members
import CliMetadata.Binding.Node
import CliMetadata.Binding.Reference
import CliMetadata.Binding.Resolution
import CliMetadata.Binding.Session
import CliMetadata.Binding.Text
import CliMetadata.Binding.Visibility
import CliMetadata.Bytes.Basic
import CliMetadata.Bytes.Compressed
import CliMetadata.Bytes.Cursor
import CliMetadata.Bytes.Writer
import CliMetadata.Constant
import CliMetadata.Digest
import CliMetadata.Error
import CliMetadata.Heap.Blobs
import CliMetadata.Heap.Guids
import CliMetadata.Heap.Strings
import CliMetadata.Identity.Basic
import CliMetadata.Identity.Key
import CliMetadata.Image
import CliMetadata.Image.ClrHeader
import CliMetadata.Image.Directories
import CliMetadata.Image.Fault
import CliMetadata.Image.Field
import CliMetadata.Image.Portable
import CliMetadata.Image.Section
import CliMetadata.Image.Stamp
import CliMetadata.Lazy.Cells
import CliMetadata.Loading.Context
import CliMetadata.Loading.Resolver
import CliMetadata.Module
import CliMetadata.Number.Shortest
import CliMetadata.Proofs.Assembly
import CliMetadata.Proofs.Attribute.Consumption
import CliMetadata.Proofs.Attribute.Reading
import CliMetadata.Proofs.Attribute.RoundTrip
import CliMetadata.Proofs.Attribute.Truncation
import CliMetadata.Proofs.Attribute.Written
import CliMetadata.Proofs.Binding.Arity
import CliMetadata.Proofs.Binding.BaseType
import CliMetadata.Proofs.Binding.Cycles
import CliMetadata.Proofs.Binding.Forwarding
import CliMetadata.Proofs.Binding.GenericParams
import CliMetadata.Proofs.Binding.Heedless
import CliMetadata.Proofs.Binding.Inquiry
import CliMetadata.Proofs.Binding.Keeping
import CliMetadata.Proofs.Binding.Known
import CliMetadata.Proofs.Binding.Ledger
import CliMetadata.Proofs.Binding.Lifetime
import CliMetadata.Proofs.Binding.Lookup
import CliMetadata.Proofs.Binding.MemberReference
import CliMetadata.Proofs.Binding.MemberType
import CliMetadata.Proofs.Binding.Members
import CliMetadata.Proofs.Binding.MethodOwner
import CliMetadata.Proofs.Binding.NameIndex
import CliMetadata.Proofs.Binding.NestedTypes
import CliMetadata.Proofs.Binding.Nodes
import CliMetadata.Proofs.Binding.Orderly
import CliMetadata.Proofs.Binding.Query
import CliMetadata.Proofs.Binding.Reached
import CliMetadata.Proofs.Binding.ReferenceChain
import CliMetadata.Proofs.Binding.ReflectionName
import CliMetadata.Proofs.Binding.Requests
import CliMetadata.Proofs.Binding.Settled
import CliMetadata.Proofs.Binding.Settling
import CliMetadata.Proofs.Binding.Sound
import CliMetadata.Proofs.Binding.Specification
import CliMetadata.Proofs.Binding.Substitution
import CliMetadata.Proofs.Binding.Termination
import CliMetadata.Proofs.Binding.TypeReference
import CliMetadata.Proofs.Bytes.Codec
import CliMetadata.Proofs.Bytes.Compressed
import CliMetadata.Proofs.Bytes.Numbers
import CliMetadata.Proofs.Bytes.Reading
import CliMetadata.Proofs.Bytes.Stopping
import CliMetadata.Proofs.Bytes.Writing
import CliMetadata.Proofs.Failing
import CliMetadata.Proofs.FullNames
import CliMetadata.Proofs.Heap.Blobs
import CliMetadata.Proofs.Hierarchy
import CliMetadata.Proofs.Identity
import CliMetadata.Proofs.Lazy.Discipline
import CliMetadata.Proofs.Lazy.Fetching
import CliMetadata.Proofs.Lazy.Record
import CliMetadata.Proofs.Loading.Aliases
import CliMetadata.Proofs.Loading.Answers
import CliMetadata.Proofs.Loading.Call
import CliMetadata.Proofs.Loading.Growth
import CliMetadata.Proofs.Loading.History
import CliMetadata.Proofs.Loading.Independence
import CliMetadata.Proofs.Loading.Kept
import CliMetadata.Proofs.Loading.Levels
import CliMetadata.Proofs.Loading.Record
import CliMetadata.Proofs.Loading.Refusal
import CliMetadata.Proofs.Loading.Stack
import CliMetadata.Proofs.Loading.Steps
import CliMetadata.Proofs.Loading.Store
import CliMetadata.Proofs.Naming
import CliMetadata.Proofs.Nesting
import CliMetadata.Proofs.PlainNames
import CliMetadata.Proofs.Running
import CliMetadata.Proofs.Signature.Appending
import CliMetadata.Proofs.Signature.Dimensions
import CliMetadata.Proofs.Signature.Encoding
import CliMetadata.Proofs.Signature.Format
import CliMetadata.Proofs.Signature.Forms
import CliMetadata.Proofs.Signature.Grammar
import CliMetadata.Proofs.Signature.Levels
import CliMetadata.Proofs.Signature.PrefixFree
import CliMetadata.Proofs.Signature.Reading
import CliMetadata.Proofs.Signature.RoundTrip
import CliMetadata.Proofs.Signature.Shortest
import CliMetadata.Proofs.Signature.Tokens
import CliMetadata.Proofs.Signature.WellFormed
import CliMetadata.Proofs.Signature.Whole
import CliMetadata.Proofs.Storage.Image
import CliMetadata.Proofs.Storage.Root
import CliMetadata.Proofs.Storage.StreamHeader
import CliMetadata.Proofs.Table.Bisection
import CliMetadata.Proofs.Table.CodedIndex
import CliMetadata.Proofs.Table.Header
import CliMetadata.Proofs.Table.Layout
import CliMetadata.Proofs.Table.Ownership
import CliMetadata.Proofs.Table.Probes
import CliMetadata.Proofs.Table.RowSpan
import CliMetadata.Proofs.Table.RowTokens
import CliMetadata.Proofs.Table.Rows
import CliMetadata.Proofs.Table.Runs
import CliMetadata.Proofs.Table.SortKey
import CliMetadata.Proofs.Text.Ascii
import CliMetadata.Proofs.Text.Utf8
import CliMetadata.Proofs.Token
import CliMetadata.Signature.Basic
import CliMetadata.Signature.Decoder
import CliMetadata.Signature.Element
import CliMetadata.Signature.Encoder
import CliMetadata.Storage.Root
import CliMetadata.Storage.StreamHeader
import CliMetadata.Table
import CliMetadata.Table.Child
import CliMetadata.Table.Children
import CliMetadata.Table.Coded
import CliMetadata.Table.Column
import CliMetadata.Table.Record
import CliMetadata.Table.Row
import CliMetadata.Table.RowIndex
import CliMetadata.Table.Schema
import CliMetadata.Table.Stream
import CliMetadata.Table.View
import CliMetadata.Table.Widths
import CliMetadata.Text.Ascii
import CliMetadata.Text.Escaped
import CliMetadata.Text.Quoted
import CliMetadata.Text.Unicode
import CliMetadata.Token
