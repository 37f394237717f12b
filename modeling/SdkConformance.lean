import SdkConformance.Bytes.Basic
import SdkConformance.Bytes.Cursor
import SdkConformance.Bytes.Place
import SdkConformance.ClassFile.AccessFlags
import SdkConformance.ClassFile.Basic
import SdkConformance.ClassFile.ByteReader
import SdkConformance.ClassFile.ClassName
import SdkConformance.ClassFile.Constant
import SdkConformance.ClassFile.ConstantPool
import SdkConformance.ClassFile.Descriptor
import SdkConformance.ClassFile.ReadStep
import SdkConformance.ClassFile.ValueType
import SdkConformance.Command.Arguments
import SdkConformance.Command.Check
import SdkConformance.Command.Failure
import SdkConformance.Command.Help
import SdkConformance.Command.Methods
import SdkConformance.Command.Run
import SdkConformance.Command.Versions
import SdkConformance.Declaration.Diagnostic
import SdkConformance.Declaration.Manifest
import SdkConformance.Declaration.Method
import SdkConformance.Declaration.Validation
import SdkConformance.Error
import SdkConformance.Json.Document
import SdkConformance.Json.Printer
import SdkConformance.Json.Record
import SdkConformance.Json.Token
import SdkConformance.Json.Value
import SdkConformance.Main
import SdkConformance.Sdk.Archive
import SdkConformance.Sdk.Files
import SdkConformance.Sdk.Path
import SdkConformance.Sdk.Range
import SdkConformance.Sdk.Registry
import SdkConformance.Sdk.Version
import SdkConformance.Signature.MethodKey
import SdkConformance.Signature.Table
import SdkConformance.Text.CharRange
import SdkConformance.Text.CodePage437
import SdkConformance.Text.Columns
import SdkConformance.Text.Digits
import SdkConformance.Text.Emoji
import SdkConformance.Text.Joining
import SdkConformance.Text.ModifiedUtf8
import SdkConformance.Text.Order
import SdkConformance.Text.Pieces
import SdkConformance.Text.Printable
import SdkConformance.Text.Quoted
import SdkConformance.Text.Utf16
import SdkConformance.Text.Utf8
import SdkConformance.Text.WhiteSpace
import SdkConformance.Text.Width
import SdkConformance.Zip.BitSource
import SdkConformance.Zip.Crc32
import SdkConformance.Zip.Directory
import SdkConformance.Zip.EndRecord
import SdkConformance.Zip.Entry
import SdkConformance.Zip.ExtraField
import SdkConformance.Zip.Huffman
import SdkConformance.Zip.Inflate
import SdkConformance.Zip.Jar
import SdkConformance.Proofs.Sdk.ArchiveRuns
import SdkConformance.Proofs.Sdk.RegistryVisits
import SdkConformance.Proofs.Declaration.ValidationRuns
import SdkConformance.Proofs.Signature.Overloads
import SdkConformance.Proofs.ClassFile.Formats
import SdkConformance.Proofs.ClassFile.Layout
import SdkConformance.Proofs.ClassFile.PoolReading
import SdkConformance.Proofs.ClassFile.LayoutReading
import SdkConformance.Proofs.ClassFile.DescriptorGrammar
import SdkConformance.Proofs.ClassFile.Truncation
import SdkConformance.Proofs.Signature.Histories
import SdkConformance.Proofs.Sdk.ArchiveCounts
import SdkConformance.Proofs.ClassFile.WrittenTexts
import SdkConformance.Proofs.Sdk.RangeQueries
import SdkConformance.Proofs.Sdk.PropertyLines
import SdkConformance.Proofs.Sdk.PropertyTexts
import SdkConformance.Proofs.Declaration.BatchSchedules
import SdkConformance.Proofs.Declaration.ValidationVisits
import SdkConformance.Proofs.ClassFile.PoolRounds
import SdkConformance.Proofs.Command.MethodListings
import SdkConformance.Proofs.Declaration.ManifestReading
import SdkConformance.Proofs.Command.CheckOutcomes
import SdkConformance.Proofs.ClassFile.TextReading
import SdkConformance.Proofs.ClassFile.StepRuns
import SdkConformance.Proofs.Sdk.PairRegistries
import SdkConformance.Proofs.Zip.InflateLimits
import SdkConformance.Proofs.Zip.InflateRounds
import SdkConformance.Proofs.Zip.DirectoryEntries
import SdkConformance.Proofs.Zip.EntryStreams
import SdkConformance.Proofs.Sdk.ClassEntries
import SdkConformance.Proofs.Signature.TypeNames
import SdkConformance.Proofs.Sdk.VersionKeys
import SdkConformance.Proofs.ClassFile.BufferReads
import SdkConformance.Proofs.ClassFile.BufferDescriptors
import SdkConformance.Proofs.ClassFile.BufferClasses
