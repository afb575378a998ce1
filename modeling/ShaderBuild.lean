import ShaderBuild.Main
import ShaderBuild.Proofs.Command.List
import ShaderBuild.Proofs.Directive.Ranges
import ShaderBuild.Proofs.Directive.Printing
import ShaderBuild.Proofs.Expansion.Agreement
import ShaderBuild.Proofs.Expansion.Validation
import ShaderBuild.Proofs.Expansion.Forest
import ShaderBuild.Proofs.Expansion.LogicalLine
import ShaderBuild.Proofs.Expansion.Splicing
import ShaderBuild.Proofs.Dependency.Closure
import ShaderBuild.Proofs.Dependency.Sufficiency
import ShaderBuild.Proofs.Dependency.Reloading
import ShaderBuild.Proofs.Dependency.Workers
import ShaderBuild.Proofs.Build.Provenance
import ShaderBuild.Proofs.Build.Contents
import ShaderBuild.Proofs.Build.Retry
import ShaderBuild.Proofs.Build.Completeness
import ShaderBuild.Proofs.Build.Pipeline
import ShaderBuild.Proofs.Build.Repetition
import ShaderBuild.Proofs.Build.Rehearsal
import ShaderBuild.Proofs.Build.Foresight
import ShaderBuild.Proofs.Build.Unexpanded
import ShaderBuild.Proofs.Build.Aggregation
import ShaderBuild.Proofs.Expansion.IncludeLines
import ShaderBuild.Proofs.Expansion.Passes
import ShaderBuild.Proofs.Expansion.Excerpts
import ShaderBuild.Proofs.Dependency.Occurrences
import ShaderBuild.Proofs.Config.CachePath
import ShaderBuild.Proofs.Build.Artifacts
